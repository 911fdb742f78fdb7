import ModuleInstall.Proofs.Encoding
import ModuleInstall.Proofs.Fronts

/-! # Names cut at their last dot -/

namespace ModuleInstall

open Bytes (slash dot)

/-! ## The name of the artifact -/

theorem Utf8.isText_dot_cons (bs : Bytes) : isText (dot :: bs) = isText bs := by
  have hstart : start dot = ([some '.'], none) := by decide
  simp [isText, scan, scanFrom_cons, step, hstart]

/-- Some text that stands behind the last dot of a name. -/
structure IsExtension (ext : Bytes) : Prop where
  ne_nil : ext ≠ []
  no_slash : slash ∉ ext
  no_dot : dot ∉ ext
  text : Utf8.isText ext = true

instance (ext : Bytes) : Decidable (IsExtension ext) :=
  decidable_of_iff (ext ≠ [] ∧ slash ∉ ext ∧ dot ∉ ext ∧ Utf8.isText ext = true)
    ⟨fun ⟨hne, hslash, hdot, ht⟩ => ⟨hne, hslash, hdot, ht⟩,
      fun h => ⟨h.ne_nil, h.no_slash, h.no_dot, h.text⟩⟩

variable {p a dir : Path} {n m stem ext lead tail : Bytes}

namespace Settings

variable {s : Settings}

/-- The kind that the last dot of a name makes, be the name text or not. -/
def kindOfName (s : Settings) (n : Bytes) : ModuleKind :=
  match splitAtLast dot n with
  | none => .ignored
  | some (_, ext) =>
    if Bytes.sameIgnoringCase ext s.sourceExt then .source
    else if Bytes.sameIgnoringCase ext s.precompiledExt then .precompiled
    else .ignored

/-- A name with the compiled extension behind its last dot, or behind a dot of its own if it has
none. -/
def compiledName (s : Settings) (n : Bytes) : Bytes :=
  ((splitAtLast dot n).map (·.1)).getD n ++ dot :: s.compiledExt

theorem compiledName_of_dotted (h : dot ∉ ext) :
    s.compiledName (stem ++ dot :: ext) = stem ++ dot :: s.compiledExt := by
  simp [compiledName, splitAtLast_append stem h]

theorem compiledName_of_undotted (h : dot ∉ n) : s.compiledName n = n ++ dot :: s.compiledExt := by
  simp [compiledName, splitAtLast_eq_none_iff.2 h]

theorem isPiece_dotted (hne : ext ≠ []) (hd : dot ∉ ext) (hs : slash ∉ stem) (hs' : slash ∉ ext) :
    IsPiece (stem ++ dot :: ext) := by
  have hcut := splitAtLast_append stem hd
  refine ⟨by simp, fun he => ?_, fun he => ?_, ?_⟩
  · have hone : splitAtLast dot [dot] = some ([], []) := by decide
    rw [he, hone] at hcut
    cases hcut
    exact hne rfl
  · have htwo : splitAtLast dot [dot, dot] = some ([dot], []) := by decide
    rw [he, htwo] at hcut
    cases hcut
    exact hne rfl
  · simp only [List.mem_append, List.mem_cons, not_or]
    exact ⟨hs, by decide, hs'⟩

theorem isPiece_compiledName (hx : IsExtension s.compiledExt) (hn : slash ∉ n) :
    IsPiece (s.compiledName n) := by
  cases hcut : splitAtLast dot n with
  | none =>
    rw [compiledName_of_undotted (splitAtLast_eq_none_iff.1 hcut)]
    exact isPiece_dotted hx.ne_nil hx.no_dot hn hx.no_slash
  | some cut =>
    obtain ⟨rfl, hd⟩ := splitAtLast_eq_some hcut
    rw [compiledName_of_dotted hd]
    refine isPiece_dotted hx.ne_nil hx.no_dot (fun h => hn ?_) hx.no_slash
    exact List.mem_append_left _ h

end Settings

/-! ## The rule for paths -/

theorem nameStem_of_undotted (h : dot ∉ n) : nameStem n = n ∧ nameExtension n = [] := by
  simp [nameStem, nameExtension, splitAtLast_eq_none_iff.2 h]

theorem nameStem_of_leading (h : dot ∉ ext) :
    nameStem (dot :: ext) = dot :: ext ∧ nameExtension (dot :: ext) = [] := by
  have hcut : splitAtLast dot (dot :: ext) = some ([], ext) := splitAtLast_append [] h
  simp [nameStem, nameExtension, hcut]

theorem nameStem_of_dotted (hs : stem ≠ []) (h : dot ∉ ext) :
    nameStem (stem ++ dot :: ext) = stem ∧ nameExtension (stem ++ dot :: ext) = ext := by
  simp [nameStem, nameExtension, splitAtLast_append stem h, hs]

namespace Path

theorem withoutExtension_of_dotted (hn : p.fileName? = some (stem ++ dot :: ext)) (hs : stem ≠ [])
    (hd : dot ∉ ext) (hb : p.bytes = lead ++ (stem ++ dot :: ext) ++ tail) :
    p.withoutExtension =
      ⟨lead ++ (stem ++ dot :: ext.take tail.length) ++ tail.take (tail.length - ext.length)⟩ := by
  have hlen : p.bytes.length - ext.length = (lead ++ stem ++ [dot]).length + tail.length := by
    rw [hb]
    simp only [List.length_append, List.length_cons, List.length_nil]
    omega
  have hbytes : p.bytes = (lead ++ stem ++ [dot]) ++ (ext ++ tail) := by
    rw [hb]
    simp
  rw [withoutExtension, hn, Option.getD_some, (nameStem_of_dotted hs hd).2, hlen, hbytes,
    List.take_length_add_append, List.take_append]
  simp

theorem withoutExtension_of_nil (hn : p.fileName? = some n) (h : nameExtension n = []) :
    p.withoutExtension = p := by
  rw [withoutExtension, hn, Option.getD_some, h]
  simp

theorem withExtension_of_bare (hne : ext ≠ []) (hs : slash ∉ ext) (hf : Front lead dir)
    (hm : IsPiece m) (ht : IsIdle tail) (hbare : p.withoutExtension = ⟨lead ++ m ++ tail⟩) :
    p.withExtension ext = .ok ⟨lead ++ (nameStem m ++ dot :: ext)⟩ := by
  unfold withExtension
  rw [if_neg hs, hbare]
  dsimp only
  rw [hf.fileName? hm ht, hf.lead hm.silent_eq hm.no_slash ht, if_neg hne]
  simp

/-- What stands in front of the last dot of a name is more than the rule for paths gives up: not
nothing, and not a dot at the end of the path. -/
def HasPlainStem (p : Path) (n : Bytes) : Prop :=
  ∀ stem ext, splitAtLast dot n = some (stem, ext) →
    stem ≠ [] ∧ (stem = [dot] → p.bytes ≠ p.lead ++ n)

end Path

namespace Settings

variable {s : Settings}

theorem artifactPath_of_undecided (h : p.stemAndExtension? = none) :
    s.artifactPath p = p.withExtension s.compiledExt := by
  rw [artifactPath, h]

theorem artifactPath_of_ill_formed (hn : p.fileName? = some n) (ht : Utf8.isText n = false) :
    s.artifactPath p = p.withExtension s.compiledExt :=
  artifactPath_of_undecided (by simp [Path.stemAndExtension?, hn, ht])

theorem artifactPath_of_text (hn : p.fileName? = some n) (ht : Utf8.isText n = true)
    (hd : p.parent? = some dir) (hcut : splitAtLast dot n ≠ none) :
    s.artifactPath p = .ok (dir.join (s.compiledName n)) := by
  obtain ⟨⟨stem, ext⟩, hcut⟩ := Option.ne_none_iff_exists'.1 hcut
  obtain ⟨rfl, hdot⟩ := splitAtLast_eq_some hcut
  have hse := stemAndExtension?_eq_some_iff.2 ⟨hn, ht, hdot⟩
  rw [artifactPath, hse, compiledName_of_dotted hdot]
  simp only [Path.withFileName, hn, hd]

theorem artifactPath_of_undotted (hne : s.compiledExt ≠ []) (hs : slash ∉ s.compiledExt)
    (hn : p.fileName? = some n) (h : dot ∉ n) :
    s.artifactPath p = .ok ⟨p.lead ++ s.compiledName n⟩ := by
  obtain ⟨dir, tail, -, hf, ht, hbytes⟩ := Path.exists_front hn
  have hnone : p.stemAndExtension? = none := by
    simp [Path.stemAndExtension?, hn, splitAtLast_eq_none_iff.2 h]
  have hbare := Path.withoutExtension_of_nil hn (nameStem_of_undotted h).2
  rw [artifactPath_of_undecided hnone, Path.withExtension_of_bare hne hs hf
    (Path.isPiece_of_fileName? hn) ht (by rw [hbare, ← hbytes]), (nameStem_of_undotted h).1,
    compiledName_of_undotted h]

theorem artifactPath_of_plain (hx : IsExtension s.compiledExt) (hn : p.fileName? = some n)
    (ht : Utf8.isText n = false) (hcut : splitAtLast dot n ≠ none) (h : p.HasPlainStem n) :
    s.artifactPath p = .ok ⟨p.lead ++ s.compiledName n⟩ := by
  obtain ⟨dir, tail, -, hf, hidle, hbytes⟩ := Path.exists_front hn
  have hpiece := Path.isPiece_of_fileName? hn
  obtain ⟨⟨stem, ext⟩, hcut⟩ := Option.ne_none_iff_exists'.1 hcut
  obtain ⟨hstem, hend⟩ := h _ _ hcut
  obtain ⟨rfl, hdot⟩ := splitAtLast_eq_some hcut
  have hbare := Path.withoutExtension_of_dotted hn hstem hdot hbytes
  have hkept : dot ∉ ext.take tail.length := fun hd => hdot (List.mem_of_mem_take hd)
  have hm : IsPiece (stem ++ dot :: ext.take tail.length) := by
    refine ⟨by simp, fun he => ?_, fun he => ?_, ?_⟩
    · have hlen := congrArg List.length he
      have := List.length_pos_iff.2 hstem
      simp only [List.length_append, List.length_cons, List.length_nil] at hlen
      omega
    · -- Nothing is left behind the dot, and so there was nothing, or nothing behind the name.
      have hbefore := splitAtLast_append stem hkept
      have htwo : splitAtLast dot [dot, dot] = some ([dot], []) := by decide
      rw [he, htwo] at hbefore
      simp only [Option.some.injEq, Prod.mk.injEq] at hbefore
      obtain ⟨rfl, hnil⟩ := hbefore
      rcases List.take_eq_nil_iff.1 hnil.symm with hlen | rfl
      · refine hend rfl ?_
        rw [hbytes, List.length_eq_zero_iff.1 hlen, List.append_nil]
      · exact hpiece.ne_up rfl
    · intro hs
      refine hpiece.no_slash ?_
      simp only [List.mem_append, List.mem_cons] at hs ⊢
      exact hs.imp_right (Or.imp_right List.mem_of_mem_take)
  rw [artifactPath_of_ill_formed hn ht, Path.withExtension_of_bare hx.ne_nil hx.no_slash hf hm
    (hidle.take _) hbare, (nameStem_of_dotted hstem hkept).1, compiledName_of_dotted hdot]

theorem exists_artifactPath (hx : IsExtension s.compiledExt) (hn : p.fileName? = some n)
    (h : Utf8.isText n = true ∨ p.HasPlainStem n) :
    ∃ a, s.artifactPath p = .ok a ∧ a.parent? = p.parent? ∧
      a.fileName? = some (s.compiledName n) := by
  obtain ⟨dir, tail, hparent, hf, -, -⟩ := Path.exists_front hn
  have hm := isPiece_compiledName hx (Path.isPiece_of_fileName? hn).no_slash
  rw [hparent]
  by_cases hcut : splitAtLast dot n = none
  · exact ⟨_, artifactPath_of_undotted hx.ne_nil hx.no_slash hn (splitAtLast_eq_none_iff.1 hcut),
      hf.entry hm⟩
  cases ht : Utf8.isText n with
  | true =>
    exact ⟨_, artifactPath_of_text hn ht hparent hcut, hf.parent?_of_join hm,
      Path.fileName?_join dir hm⟩
  | false =>
    rw [ht] at h
    exact ⟨_, artifactPath_of_plain hx hn ht hcut (h.resolve_left (by simp)), hf.entry hm⟩

theorem artifactPath_again (hx : IsExtension s.compiledExt)
    (hn : a.fileName? = some (stem ++ dot :: s.compiledExt)) :
    ∃ again, s.artifactPath a = .ok again ∧ again.Same a := by
  have hplain : Utf8.isText (stem ++ dot :: s.compiledExt) = true ∨
      a.HasPlainStem (stem ++ dot :: s.compiledExt) := by
    rw [Classical.or_iff_not_imp_left]
    intro ht stem' ext' hcut
    rw [splitAtLast_append stem hx.no_dot] at hcut
    cases hcut
    -- Without a stem, or with a dot for a stem, it would be text.
    have htext : Utf8.isText (dot :: s.compiledExt) = true := by rw [Utf8.isText_dot_cons, hx.text]
    constructor
    · rintro rfl
      exact ht htext
    · rintro rfl
      refine absurd ?_ ht
      rw [List.singleton_append, Utf8.isText_dot_cons, htext]
  obtain ⟨again, hag, hd, hname⟩ := exists_artifactPath hx hn hplain
  rw [compiledName_of_dotted hx.no_dot] at hname
  exact ⟨again, hag, Path.same_of_parent?_eq hname hn hd⟩

/-! ## Names that are not text -/

theorem artifactPath_of_unnamed (hs : slash ∉ s.compiledExt) (hn : p.fileName? = none) :
    s.artifactPath p = .ok p := by
  have hnone : p.stemAndExtension? = none := by simp [Path.stemAndExtension?, hn]
  have hbare : p.withoutExtension = p := by
    simp [Path.withoutExtension, hn, nameExtension, splitAtLast]
  rw [artifactPath_of_undecided hnone, Path.withExtension, if_neg hs, hbare]
  simp only [hn]

theorem artifactPath_of_leading (hx : IsExtension s.compiledExt)
    (hn : p.fileName? = some (dot :: ext)) (hd : dot ∉ ext)
    (ht : Utf8.isText (dot :: ext) = false) :
    s.artifactPath p = .ok ⟨p.lead ++ (dot :: ext ++ dot :: s.compiledExt)⟩ := by
  obtain ⟨dir, tail, -, hf, hidle, hbytes⟩ := Path.exists_front hn
  have hbare := Path.withoutExtension_of_nil hn (nameStem_of_leading hd).2
  rw [artifactPath_of_ill_formed hn ht, Path.withExtension_of_bare hx.ne_nil hx.no_slash hf
    (Path.isPiece_of_fileName? hn) hidle (by rw [hbare, ← hbytes]), (nameStem_of_leading hd).1]

theorem artifactPath_of_dots (hx : IsExtension s.compiledExt)
    (hn : p.fileName? = some (dot :: dot :: ext)) (hd : dot ∉ ext)
    (ht : Utf8.isText (dot :: dot :: ext) = false) (hend : p.bytes = p.lead ++ dot :: dot :: ext) :
    ∃ a, s.artifactPath p = .ok a ∧ a.fileName? = none := by
  obtain ⟨dir, -, -, hf, -, -⟩ := Path.exists_front hn
  have hn' : p.fileName? = some ([dot] ++ dot :: ext) := hn
  have hend' : p.bytes = p.lead ++ ([dot] ++ dot :: ext) ++ [] := by
    rw [hend, List.append_nil]
    rfl
  have hbare := Path.withoutExtension_of_dotted hn' (by simp) hd hend'
  have hup : (Path.mk (p.lead ++ [dot, dot])).fileName? = none := by
    have hsplit := hf.splitLast (m := [dot, dot]) (by decide) (by decide) Path.isIdle_nil
    rw [List.append_nil] at hsplit
    rw [Path.fileName?, hsplit]
    rfl
  refine ⟨⟨p.lead ++ [dot, dot]⟩, ?_, hup⟩
  simp only [List.length_nil, List.take_zero, Nat.zero_sub, List.append_nil] at hbare
  rw [artifactPath_of_ill_formed hn ht, Path.withExtension, if_neg hx.no_slash, hbare]
  simp only [List.singleton_append, hup]

theorem exists_artifactPath_otherwise (hx : IsExtension s.compiledExt) (hn : p.fileName? = some n)
    (ht : Utf8.isText n = false) (h : ¬ p.HasPlainStem n) :
    ∃ a, s.artifactPath p = .ok a ∧ a.fileName? ≠ some (s.compiledName n) ∧
      ∃ again, s.artifactPath a = .ok again ∧ again.Same a := by
  obtain ⟨dir, -, -, hf, -, -⟩ := Path.exists_front hn
  have hpiece := Path.isPiece_of_fileName? hn
  cases hcut : splitAtLast dot n with
  | none =>
    refine absurd (fun _ _ hc => ?_) h
    rw [hcut] at hc
    cases hc
  | some cut =>
  obtain ⟨stem, ext⟩ := cut
  obtain ⟨rfl, hd⟩ := splitAtLast_eq_some hcut
  by_cases hstem : stem = []
  · subst hstem
    have hext : slash ∉ dot :: ext := hpiece.no_slash
    have hname := (hf.entry (isPiece_dotted hx.ne_nil hx.no_dot hext hx.no_slash)).2
    refine ⟨_, artifactPath_of_leading hx hn hd ht, ?_, artifactPath_again hx hname⟩
    rw [hname, compiledName_of_dotted hd]
    intro he
    have hlen := congrArg List.length (Option.some.inj he)
    simp only [List.length_append, List.length_cons, List.length_nil] at hlen
    omega
  · obtain ⟨rfl, hend⟩ : stem = [dot] ∧ p.bytes = p.lead ++ (stem ++ dot :: ext) := by
      refine Classical.byContradiction fun hnot => h fun stem' ext' hcut' => ?_
      rw [hcut] at hcut'
      cases hcut'
      exact ⟨hstem, fun hdot hend => hnot ⟨hdot, hend⟩⟩
    obtain ⟨a, ha, hnone⟩ := artifactPath_of_dots hx hn hd ht hend
    refine ⟨a, ha, by simp [hnone], a, artifactPath_of_unnamed hx.no_slash hnone, rfl⟩

theorem kindOf_eq (hn : p.fileName? = some n) :
    s.kindOf p = if Utf8.isText n = true then s.kindOfName n else .ignored := by
  unfold kindOf kindOfName Path.stemAndExtension?
  simp only [hn]
  by_cases ht : Utf8.isText n = true
  · simp only [ht, if_true]
    cases splitAtLast dot n <;> rfl
  · simp [ht]

/-- A name that is text has the kind that its last dot makes, and one that is not has none. The
artifact stands beside the source under its name cut at the last dot, unless that name is no text and
has no plain stem. In every case an artifact is its own artifact. -/
theorem names_cut_at_last_dot (s : Settings) (hx : IsExtension s.compiledExt)
    (hn : p.fileName? = some n) :
    s.kindOf p = (if Utf8.isText n = true then s.kindOfName n else .ignored) ∧
    ∃ a, s.artifactPath p = .ok a ∧
      (a.parent? = p.parent? ∧ a.fileName? = some (s.compiledName n) ↔
        Utf8.isText n = true ∨ p.HasPlainStem n) ∧
      ∃ again, s.artifactPath a = .ok again ∧ again.Same a := by
  refine ⟨kindOf_eq hn, ?_⟩
  by_cases h : Utf8.isText n = true ∨ p.HasPlainStem n
  · obtain ⟨a, ha, hd, hname⟩ := exists_artifactPath hx hn h
    refine ⟨a, ha, iff_of_true ⟨hd, hname⟩ h, ?_⟩
    exact artifactPath_again hx hname
  · obtain ⟨ht, hplain⟩ := not_or.1 h
    obtain ⟨a, ha, hother, hagain⟩ :=
      exists_artifactPath_otherwise hx hn (Bool.eq_false_iff.2 ht) hplain
    exact ⟨a, ha, iff_of_false (fun hb => hother hb.2) h, hagain⟩

theorem names_cut_at_last_dot_odd :
    let s := Sample.settings
    let bent : Path := ⟨Utf8.encode "w//" ++ [0xFF] ++ Utf8.encode "A.jar.java/."⟩
    let hidden := Sample.path "w/.JAVA"
    bent.HasPlainStem ([0xFF] ++ Utf8.encode "A.jar.java") ∧
    (s.kindOf bent = .ignored ∧ ∃ a, s.artifactPath bent = .ok a ∧
      a.parent? = some (Sample.path "w") ∧
      a.fileName? = some ([0xFF] ++ Utf8.encode "A.jar.class") ∧
      ∃ again, s.artifactPath a = .ok again ∧ again.Same a) ∧
    (s.kindOf hidden = .source ∧ ∃ a, s.artifactPath hidden = .ok a ∧
      a.parent? = some (Sample.path "w") ∧ a.fileName? = some (Utf8.encode ".class")) := by
  intro s bent hidden
  have hx : IsExtension s.compiledExt := by decide
  have hplain : bent.HasPlainStem ([0xFF] ++ Utf8.encode "A.jar.java") := by
    intro stem ext hcut
    have heq : splitAtLast dot ([0xFF] ++ Utf8.encode "A.jar.java") =
        some ([0xFF] ++ Utf8.encode "A.jar", Utf8.encode "java") := by decide
    rw [heq] at hcut
    cases hcut
    exact ⟨by decide, by decide⟩
  refine ⟨hplain, ⟨by decide +kernel, ?_⟩, by decide +kernel, ?_⟩
  · obtain ⟨-, a, ha, hiff, hagain⟩ := names_cut_at_last_dot s (p := bent)
      (n := [0xFF] ++ Utf8.encode "A.jar.java") hx (by decide +kernel)
    obtain ⟨hd, hn⟩ := hiff.2 (.inr hplain)
    refine ⟨a, ha, ?_, ?_, hagain⟩
    · rw [hd]
      decide +kernel
    · rw [hn]
      decide +kernel
  · obtain ⟨-, a, ha, hiff, -⟩ := names_cut_at_last_dot s (p := hidden)
      (n := Utf8.encode ".JAVA") hx (by decide +kernel)
    obtain ⟨hd, hn⟩ := hiff.2 (.inl (by decide +kernel))
    refine ⟨a, ha, ?_, ?_⟩
    · rw [hd]
      decide +kernel
    · rw [hn]
      decide +kernel

/-- An ill-formed byte in front of the last dot makes a source something to leave alone, and one
behind a dot at the start keeps that dot from counting. -/
theorem kindOf_ill_formed :
    let s := Sample.settings
    let n : Bytes := [0xFF] ++ Utf8.encode ".java"
    let hidden : Bytes := [dot, 0xFF]
    ((Path.mk n).fileName? = some n ∧ s.kindOfName n = .source ∧ s.kindOf ⟨n⟩ = .ignored) ∧
      (Path.mk hidden).fileName? = some hidden ∧ s.compiledName hidden = Utf8.encode ".class" ∧
      s.artifactPath ⟨hidden⟩ = .ok ⟨hidden ++ Utf8.encode ".class"⟩ := by
  refine ⟨by decide +kernel, by decide +kernel, by decide +kernel, ?_⟩
  exact Sample.eq_ok_of_toOption (by decide +kernel)

end Settings

end ModuleInstall
