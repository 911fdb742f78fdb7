import ModuleInstall.FileSystem.Basic
import ModuleInstall.Module.Kind
import ModuleInstall.Proofs.Paths

/-! # Names and kinds -/

namespace ModuleInstall.Settings

variable {s : Settings} {p : Path} {n : Name}

theorem stemAndExtension?_eq_some_iff {stem ext : Bytes} :
    p.stemAndExtension? = some (stem, ext) ↔
      p.fileName? = some (stem ++ Bytes.dot :: ext) ∧ Utf8.isText (stem ++ Bytes.dot :: ext) = true ∧
        Bytes.dot ∉ ext := by
  unfold Path.stemAndExtension?
  constructor
  · intro h
    split at h
    · rename_i n hn
      split at h
      · rename_i ht
        obtain ⟨rfl, hd⟩ := splitAtLast_eq_some h
        exact ⟨hn, ht, hd⟩
      · cases h
    · cases h
  · rintro ⟨hn, ht, hd⟩
    simp only [hn, ht, if_true]
    exact splitAtLast_append stem hd

theorem kindOf_eq_source_iff :
    s.kindOf p = .source ↔
      ∃ stem ext, p.stemAndExtension? = some (stem, ext) ∧ ext.sameIgnoringCase s.sourceExt = true := by
  unfold kindOf
  split
  · simp_all
  · rename_i stem ext h
    simp only [h, Option.some.injEq, Prod.mk.injEq]
    by_cases hs : ext.sameIgnoringCase s.sourceExt = true
    · simp only [hs, if_true, true_iff]
      exact ⟨stem, ext, ⟨rfl, rfl⟩, hs⟩
    · rw [if_neg hs]
      refine iff_of_false ?_ ?_
      · by_cases hp : ext.sameIgnoringCase s.precompiledExt = true <;> simp [hp]
      · rintro ⟨_, _, ⟨rfl, rfl⟩, h'⟩
        exact hs h'

theorem kindOf_eq_precompiled_iff :
    s.kindOf p = .precompiled ↔
      ∃ stem ext, p.stemAndExtension? = some (stem, ext) ∧
        ext.sameIgnoringCase s.sourceExt = false ∧ ext.sameIgnoringCase s.precompiledExt = true := by
  unfold kindOf
  split
  · simp_all
  · rename_i stem ext h
    simp only [h, Option.some.injEq, Prod.mk.injEq]
    by_cases hs : ext.sameIgnoringCase s.sourceExt = true
    · simp only [hs, if_true]
      refine iff_of_false (by simp) ?_
      rintro ⟨_, _, ⟨rfl, rfl⟩, h', -⟩
      simp [hs] at h'
    · by_cases hp : ext.sameIgnoringCase s.precompiledExt = true
      · simp only [hs, hp, if_true]
        exact ⟨fun _ => ⟨stem, ext, ⟨rfl, rfl⟩, by simpa using hs, hp⟩, fun _ => rfl⟩
      · rw [if_neg hs, if_neg hp]
        refine iff_of_false (by simp) ?_
        rintro ⟨_, _, ⟨rfl, rfl⟩, -, h'⟩
        exact hp h'

theorem fileName?_of_kindOf (h : s.kindOf p ≠ .ignored) : ∃ n, p.fileName? = some n := by
  cases hk : s.kindOf p with
  | source =>
    obtain ⟨stem, ext, hse, -⟩ := kindOf_eq_source_iff.1 hk
    exact ⟨_, (stemAndExtension?_eq_some_iff.1 hse).1⟩
  | precompiled =>
    obtain ⟨stem, ext, hse, -⟩ := kindOf_eq_precompiled_iff.1 hk
    exact ⟨_, (stemAndExtension?_eq_some_iff.1 hse).1⟩
  | ignored => exact absurd hk h

theorem artifactPath_of_source (other : Settings) (h : s.kindOf p = .source) :
    ∃ path, other.artifactPath p = .ok path := by
  obtain ⟨stem, ext, hse, -⟩ := kindOf_eq_source_iff.1 h
  exact ⟨_, by rw [artifactPath, hse]⟩

/-! ## Artifacts -/

/-- The name of the artifact of a source. -/
def artifactName (s : Settings) (n : Name) : Name :=
  match splitAtLast Bytes.dot n with
  | some (stem, _) => stem ++ Bytes.dot :: s.compiledExt
  | none => n

/-- The compiled extension is one that no module is listed by. -/
structure TellsApart (s : Settings) : Prop where
  ne_nil : s.compiledExt ≠ []
  no_slash : Bytes.slash ∉ s.compiledExt
  no_dot : Bytes.dot ∉ s.compiledExt
  not_source : s.compiledExt.sameIgnoringCase s.sourceExt = false
  not_precompiled : s.compiledExt.sameIgnoringCase s.precompiledExt = false

theorem tellsApart_of_default (hs : s.sourceExt = Utf8.encode "java")
    (hc : s.compiledExt = Utf8.encode "class") (hp : s.precompiledExt = Utf8.encode "jil") :
    s.TellsApart := by
  constructor <;> rw [hc]
  · decide
  · decide
  · decide
  · rw [hs]
    decide
  · rw [hp]
    decide

theorem artifactName_eq {stem ext : Bytes} (h : Bytes.dot ∉ ext) :
    s.artifactName (stem ++ Bytes.dot :: ext) = stem ++ Bytes.dot :: s.compiledExt := by
  rw [artifactName, splitAtLast_append stem h]

/-- A source ends in a dot and an extension, and its artifact is called like it up to there. -/
theorem exists_stem_of_source (hn : IsPiece n) (h : s.kindOf (p.join n) = .source) :
    ∃ stem ext, n = stem ++ Bytes.dot :: ext ∧ Bytes.dot ∉ ext ∧
      s.artifactName n = stem ++ Bytes.dot :: s.compiledExt ∧
      s.artifactPath (p.join n) = .ok ((p.join n).withFileName (s.artifactName n)) := by
  obtain ⟨stem, ext, hse, -⟩ := kindOf_eq_source_iff.1 h
  obtain ⟨hf, -, hd⟩ := stemAndExtension?_eq_some_iff.1 hse
  rw [Path.fileName?_join p hn] at hf
  cases hf
  refine ⟨stem, ext, rfl, hd, artifactName_eq hd, ?_⟩
  rw [artifactPath, hse, artifactName_eq hd]

theorem isPiece_artifactName (h : s.TellsApart) (hn : IsPiece n)
    (hk : s.kindOf (p.join n) = .source) : IsPiece (s.artifactName n) := by
  obtain ⟨stem, ext, rfl, hd, ha, -⟩ := exists_stem_of_source hn hk
  obtain ⟨b, more, hb⟩ := List.exists_cons_of_ne_nil h.ne_nil
  rw [ha]
  refine ⟨by simp, ?_, ?_, ?_⟩
  · cases stem <;> simp [hb]
  · have hbdot : b ≠ Bytes.dot := by
      rintro rfl
      exact h.no_dot (by simp [hb])
    intro he
    have hlen := congrArg List.length he
    cases stem with
    | nil => simp [hb, hbdot] at he
    | cons c stem =>
      simp only [hb, List.length_append, List.length_cons, List.length_nil] at hlen
      omega
  · have := hn.no_slash
    simp only [List.mem_append, List.mem_cons, not_or] at this ⊢
    exact ⟨this.1, by decide, h.no_slash⟩

theorem kindOf_artifactName (h : s.TellsApart) (hn : IsPiece n)
    (hk : s.kindOf (p.join n) = .source) : s.kindOf (p.join (s.artifactName n)) = .ignored := by
  have ha := isPiece_artifactName h hn hk
  obtain ⟨stem, ext, -, -, heq, -⟩ := exists_stem_of_source hn hk
  have hsplit : ∀ stem' ext', (p.join (s.artifactName n)).stemAndExtension? = some (stem', ext') →
      ext' = s.compiledExt := by
    intro stem' ext' hse
    obtain ⟨hf, -, hd⟩ := stemAndExtension?_eq_some_iff.1 hse
    rw [Path.fileName?_join p ha, heq] at hf
    have h₁ := splitAtLast_append stem h.no_dot
    rw [Option.some.inj hf, splitAtLast_append stem' hd] at h₁
    cases h₁
    rfl
  cases hkind : s.kindOf (p.join (s.artifactName n)) with
  | ignored => rfl
  | source =>
    obtain ⟨stem', ext', hse, hsame⟩ := kindOf_eq_source_iff.1 hkind
    rw [hsplit _ _ hse, h.not_source] at hsame
    cases hsame
  | precompiled =>
    obtain ⟨stem', ext', hse, -, hsame⟩ := kindOf_eq_precompiled_iff.1 hkind
    rw [hsplit _ _ hse, h.not_precompiled] at hsame
    cases hsame

/-- The name under which a listed file is installed. -/
def moduleName (s : Settings) (dir : Path) (n : Name) : Name :=
  if s.kindOf (dir.join n) = .source then s.artifactName n else n

theorem isPiece_moduleName (h : s.TellsApart) (hn : IsPiece n) : IsPiece (s.moduleName p n) := by
  unfold moduleName
  split
  · exact isPiece_artifactName h hn ‹_›
  · exact hn

theorem length_moduleName_le (hn : IsPiece n) :
    (s.moduleName p n).length ≤ n.length + s.compiledExt.length := by
  unfold moduleName
  split
  · rename_i h
    obtain ⟨stem, ext, hsplit, -, ha, -⟩ := exists_stem_of_source hn h
    rw [ha, hsplit]
    simp only [List.length_append, List.length_cons]
    omega
  · omega

end ModuleInstall.Settings
