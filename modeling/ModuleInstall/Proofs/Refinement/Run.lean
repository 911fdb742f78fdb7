import ModuleInstall.Proofs.Levels
import ModuleInstall.Proofs.Refinement.Turn
import ModuleInstall.Proofs.Room
import ModuleInstall.Proofs.Sample

/-! # A run on two maps -/

namespace ModuleInstall

open FileSystem

namespace Installer

open ModuleInstall.Action TwoMaps

variable {i : Installer} {dir : Path} {fs₀ fs : FileSystem} {D S : Location} {n : Name}
  {t : Session} {answer : Name → Answer}

/-- The answers are those of the compiler, each at the turn of its source. -/
def AnswersFrom (i : Installer) (dir : Path) (D : Location) (total : Nat) (names : List Name)
    (k : Nat) (t : Session) (answer : Name → Answer) : Prop :=
  ∀ entries n number rest t', n ∈ names → i.settings.kindOf (dir.join n) = .source →
    i.Reaches total ((names.map dir.join).zipIdx k) t entries ((dir.join n, number) :: rest) t' →
    i.Answers dir D t'.files n (answer n)

theorem eq_of_join_eq {names : List Name} {m : Name} (hproper : ∀ p ∈ n :: names, p.Proper)
    (hm : m ∈ n :: names) (h : dir.join m = dir.join n) : m = n :=
  Path.join_injective dir (hproper m hm).isPiece (hproper n List.mem_cons_self).isPiece h

theorem answersFrom_of_error {total k : Nat} {names : List Name} {a : Answer} {e : InstallError}
    {t' : Session} (hproper : ∀ m ∈ n :: names, m.Proper)
    (ha : i.settings.kindOf (dir.join n) = .source → i.Answers dir D t.files n a)
    (h : i.handleListed total (dir.join n) k t = .error e t') :
    i.AnswersFrom dir D total (n :: names) k t fun _ => a := by
  intro entries m number rest t'' hm hs hr
  rw [List.map_cons, List.zipIdx_cons] at hr
  rcases reaches_cons hr with ⟨heq, rfl⟩ | ⟨entry, s₁, more, hl, -⟩
  · simp only [List.cons.injEq, Prod.mk.injEq] at heq
    obtain rfl := eq_of_join_eq hproper hm heq.1.1
    exact ha hs
  · rw [h] at hl
    cases hl

/-- The answer for a first turn is added to those for the turns after it. The name of the first turn
does not come again. -/
theorem answersFrom_cons {total k : Nat} {names : List Name} {a : Answer}
    {entry : Option (String × Outcome)} {t₁ : Session} (hnodup : (n :: names).Nodup)
    (hproper : ∀ m ∈ n :: names, m.Proper)
    (ha : i.settings.kindOf (dir.join n) = .source → i.Answers dir D t.files n a)
    (h : i.handleListed total (dir.join n) k t = .ok entry t₁)
    (hrest : i.AnswersFrom dir D total names (k + 1) t₁ answer) :
    i.AnswersFrom dir D total (n :: names) k t (Function.update answer n a) := by
  have hnot := (List.nodup_cons.1 hnodup).1
  intro entries m number rest t' hm hs hr
  rw [List.map_cons, List.zipIdx_cons] at hr
  rcases reaches_cons hr with ⟨heq, rfl⟩ | ⟨entry', s₁, more, hl, hr'⟩
  · simp only [List.cons.injEq, Prod.mk.injEq] at heq
    obtain rfl := eq_of_join_eq hproper hm heq.1.1
    rw [Function.update_self]
    exact ha hs
  · rw [h] at hl
    cases hl
    -- The path at its turn is one of those after the first.
    have hmem := (suffix_of_reaches hr').subset List.mem_cons_self
    obtain ⟨m', hm', hj⟩ := List.mem_map.1 (List.fst_mem_of_mem_zipIdx hmem)
    obtain rfl := eq_of_join_eq (fun p hp => hproper p (by
      rcases List.mem_cons.1 hp with rfl | hp
      · exact hm
      · exact List.mem_cons_of_mem _ hp)) (List.mem_cons_of_mem m hm') hj
    rw [Function.update_of_ne (ne_of_mem_of_not_mem hm' hnot)]
    exact hrest _ _ _ _ _ hm' hs hr'

namespace Ground

variable (g : Ground i dir fs₀ D S)
include g

theorem handleAll_refines (total : Nat) (names : List Name) (k : Nat) {t : Session}
    (hk : Kept D S fs₀ t.files) (hnodup : names.Nodup) (hproper : ∀ n ∈ names, n.Proper)
    (hadm : ∀ n ∈ names, i.Admissible dir n)
    (hwork : ∀ n ∈ names, i.settings.kindOf (dir.join n) ≠ .ignored →
      ∃ content, (of t.files D S).work n = some content) :
    ∃ answer tally t', i.AnswersFrom dir D total names k t answer ∧
      run i.settings dir (blockedIn fs₀ S) answer names (of t.files D S) = tally ∧
      i.handleAll total ((names.map dir.join).zipIdx k) t =
        (match tally.stop with
          | none => .ok tally.entries t'
          | some e => .error e t') ∧
      of t'.files D S = tally.maps ∧ Kept D S fs₀ t'.files := by
  induction names generalizing k t with
  | nil =>
    refine ⟨fun _ => .refuses (.notStarted "" .noFileName), _, t, ?_, rfl, rfl, rfl, hk⟩
    intro entries n number rest t' hn
    cases hn
  | cons n names ih =>
    have hnot := (List.nodup_cons.1 hnodup).1
    have hn := hproper n List.mem_cons_self
    have hworkn := hwork n List.mem_cons_self
    -- The answer for the first name, which matters for a source only.
    obtain ⟨a, ha⟩ : ∃ a, i.settings.kindOf (dir.join n) = .source →
        i.Answers dir D t.files n a := by
      by_cases hs : i.settings.kindOf (dir.join n) = .source
      · obtain ⟨a, ha⟩ := g.exists_answer hk hn hs
        exact ⟨a, fun _ => ha⟩
      · exact ⟨.refuses (.notStarted "" .noFileName), fun h => absurd h hs⟩
    have hstep := g.handleListed_refines (fun _ => a) total k hk hn
      (hadm n List.mem_cons_self) hworkn ha
    rw [List.map_cons, List.zipIdx_cons]
    cases hh : TwoMaps.handle i.settings dir (blockedIn fs₀ S) (fun _ => a) n (of t.files D S) with
    | error e =>
      rw [hh] at hstep
      obtain ⟨t', hl, hkept, hof⟩ := hstep
      refine ⟨fun _ => a, { entries := [], maps := of t.files D S, stop := some e }, t',
        answersFrom_of_error hproper ha hl, ?_, ?_, hof, hkept⟩
      · rw [run, hh]
      · rw [handleAll_cons_of_error hl]
    | ok r =>
      obtain ⟨outcome, m'⟩ := r
      rw [hh] at hstep
      obtain ⟨t₁, hl, hkept, hof⟩ := hstep
      have hwork' : ∀ m ∈ names, i.settings.kindOf (dir.join m) ≠ .ignored →
          ∃ content, (of t₁.files D S).work m = some content := by
        intro m hm hs
        rw [hof, handle_work g.tellsApart hn.isPiece hh hs]
        exact hwork m (List.mem_cons_of_mem n hm) hs
      obtain ⟨answer, tally, t', hanswers, hrun, hall, hmaps, hkept'⟩ :=
        ih (k + 1) hkept (List.nodup_cons.1 hnodup).2
          (fun m hm => hproper m (List.mem_cons_of_mem n hm))
          (fun m hm => hadm m (List.mem_cons_of_mem n hm)) hwork'
      refine ⟨Function.update answer n a, { tally with
        entries := (outcome.map fun o => (Utf8.toText n, o)).toList ++ tally.entries }, t',
        answersFrom_cons hnodup hproper ha hl hanswers, ?_, ?_, hmaps, hkept'⟩
      · have hself : Function.update answer n a n = a := Function.update_self n a answer
        have hother : ∀ m ∈ names, Function.update answer n a m = answer m := by
          intro m hm
          exact Function.update_of_ne (ne_of_mem_of_not_mem hm hnot) a answer
        have hhandle : TwoMaps.handle i.settings dir (blockedIn fs₀ S) (Function.update answer n a) n
            (of t.files D S) = .ok (outcome, m') := by
          rw [← hh]
          exact handle_congr hself
        rw [run, hhandle]
        dsimp only
        rw [run_congr hother, ← hof, hrun]
      · rw [handleAll_cons_of_ok hl, hall]
        cases tally.stop <;> rfl

theorem isFile_listed (hn : n.Proper) :
    fs₀.isFile i.here (dir.join n) = ((of fs₀ D S).work n).isSome := by
  by_cases hlen : (dir.join n).bytes.length < Route.maxLength
  · exact isFile_iff_of_leads (g.leads_listed (Kept.refl g.plain) hn hlen)
  -- What has too long a path is not listed, and is no file either.
  · rw [isFile_of_long (Nat.le_of_not_lt hlen), eq_comm, Bool.eq_false_iff]
    exact fun hc => hlen (g.admissible n hc).listed

theorem listFiles_ground (hf : t.files = fs₀) :
    ∃ names : List Name, i.listFiles dir t = .ok (names.map dir.join) t ∧
      (names.Pairwise fun a b => Bytes.le a b = true ∧ a ≠ b) ∧
      (∀ n ∈ names, n.Proper) ∧ ∀ n, n ∈ names ↔ ((of fs₀ D S).work n).isSome := by
  have hlist : t.files.list i.here dir = .ok ((fs₀.names D).mergeSort Bytes.le) :=
    list_eq_ok_iff.2 ⟨D, hf ▸ g.dirAt, by rw [hf]⟩
  have hmem : ∀ n, n ∈ (fs₀.names D).mergeSort Bytes.le ↔ ∃ node, fs₀.node? (n :: D) = some node :=
    fun n => by rw [List.mem_mergeSort, mem_names_iff]
  have hproper : ∀ n ∈ (fs₀.names D).mergeSort Bytes.le, n.Proper := by
    intro n hn
    obtain ⟨node, hx⟩ := (hmem n).1 hn
    exact proper_of_node? hx
  refine ⟨((fs₀.names D).mergeSort Bytes.le).filter fun n => ((of fs₀ D S).work n).isSome,
    ?_, ?_, ?_, ?_⟩
  · have hfilter : (((fs₀.names D).mergeSort Bytes.le).map dir.join).filter (t.files.isFile i.here) =
        (((fs₀.names D).mergeSort Bytes.le).filter
          fun n => ((of fs₀ D S).work n).isSome).map dir.join := by
      rw [List.filter_map]
      refine congrArg _ (List.filter_congr fun n hn => ?_)
      rw [Function.comp_apply, hf]
      exact g.isFile_listed (hproper n hn)
    unfold listFiles
    rw [run_bind_of_ok (query_eq_ok_iff.2 ⟨hlist, rfl⟩), run_ask, hfilter]
  · exact (pairwise_of_list hlist).filter _
  · exact fun n hn => hproper n (List.mem_filter.1 hn).1
  · intro n
    rw [List.mem_filter, hmem]
    refine and_iff_right_of_imp fun hc => ?_
    obtain ⟨content, hc⟩ := Option.isSome_iff_exists.1 hc
    obtain ⟨x, hx⟩ := content?_eq_some_iff.1 hc
    exact ⟨_, hx⟩

end Ground

theorem plain_of_provision {s s' : Session} (h : i.provision s = .ok () s') (hp : s.files.Plain) :
    s'.files.Plain := by
  intro l node hx
  by_cases hc : s'.files.node? l = s.files.node? l
  · exact hp l node (hc ▸ hx)
  · rw [((shaped_of_provision h).changed l hc).2.2] at hx
    exact Or.inl (Option.some.inj hx).symm

/-- In a plain file system where space does not run out, with a compiler that is obedient, a run over
a directory `D` that is not the tree `S` is a run on two maps, from the tree that has been brought
into shape. The names are those of the files in `D`, each once and in order, and the compiler's
answers are those at the turns of the sources. Apart from the two maps nothing changes. -/
theorem installAll_refines {s s₁ : Session} (hplain : s.files.Plain) (hobedient : i.Obedient)
    (htells : i.settings.TellsApart) (hroom : i.HasRoom dir s)
    (hprovision : i.provision s = .ok () s₁) (hdir : s₁.files.directoryAt i.here dir = .ok D)
    (hadmissible : ∀ n, (s₁.files.content? (n :: D)).isSome → i.Admissible dir n)
    (hapart : s₁.files.directoryAt i.here i.settings.tree.std ≠ .ok D) :
    ∃ S names answer tally s', s₁.files.directoryAt i.here i.settings.tree.std = .ok S ∧
      (names.Pairwise fun a b => Bytes.le a b = true ∧ a ≠ b) ∧
      (∀ n, n ∈ names ↔ ((of s₁.files D S).work n).isSome) ∧
      (∀ paths entries n number rest t, n ∈ names → i.settings.kindOf (dir.join n) = .source →
        i.Runs dir s paths entries ((dir.join n, number) :: rest) t →
        i.Answers dir D t.files n (answer n)) ∧
      run i.settings dir (blockedIn s₁.files S) answer names (of s₁.files D S) = tally ∧
      i.installAll dir s = tally.result s' ∧ of s'.files D S = tally.maps ∧
      Kept D S s₁.files s'.files := by
  obtain ⟨S, hstd⟩ := directoryAt_std_of_provision hprovision
  have hprovision' : i.unlimited.provision s = .ok () s₁ := hprovision
  have hadmissible' : ∀ n, (s₁.files.content? (n :: D)).isSome → i.unlimited.Admissible dir n :=
    fun n hn => ⟨(hadmissible n hn).listed, (hadmissible n hn).installed⟩
  have g : i.unlimited.Ground dir s₁.files D S :=
    { plain := plain_of_provision hprovision hplain
      dirAt := hdir
      stdAt := hstd
      apart := by
        rintro rfl
        exact hapart hstd
      admissible := hadmissible'
      tellsApart := htells
      obedient := hobedient
      roomy := rfl }
  obtain ⟨names, hlist, hsorted, hproper, hmem⟩ := g.listFiles_ground (t := s₁) rfl
  obtain ⟨answer, tally, s', hanswers, hrun, hall, hmaps, hkept⟩ :=
    g.handleAll_refines (names.map dir.join).length names 1 (Kept.refl g.plain)
      (hsorted.imp fun h => h.2) hproper (fun n hn => hadmissible' n ((hmem n).1 hn))
      fun n hn _ => Option.isSome_iff_exists.1 ((hmem n).1 hn)
  refine ⟨S, names, answer, tally, s', hstd, hsorted, hmem, ?_, hrun, ?_, hmaps, hkept⟩
  · intro paths entries n number rest t hn hs hr
    obtain ⟨hl, hr⟩ := reaches_of_runs hprovision' (runs_unlimited hroom hr)
    rw [hlist] at hl
    cases hl
    exact hanswers entries n number rest t hn hs hr
  · rw [← installAll_unlimited hroom, run_installAll hprovision' hlist, hall, Tally.result]
    cases tally.stop <;> rfl

theorem obedient_writing (settings : Settings) (here : Location) :
    Obedient { settings, compiler := Sample.writing settings here, here } := by
  intro fs source hplain hs
  obtain ⟨path, hpath⟩ := Settings.artifactPath_of_source settings hs
  unfold Sample.writing
  simp only [hpath]
  cases hw : fs.write here path [0x2A] with
  | error cause => exact Or.inl ⟨_, rfl, fun l => rfl⟩
  | ok files =>
    obtain ⟨d, n, x, hwalk, -, hwas, hnow, hothers⟩ := write_spec hw
    refine Or.inr ⟨{ path }, d, n, [0x2A], rfl, rfl, hwalk, ?_, ⟨x, hnow⟩, hothers⟩
    rintro ⟨fixed, hf⟩
    rcases hwas with hx | ⟨c, y, hx⟩ <;> rw [hf] at hx <;> cases hx

theorem installAll_refines_mixed :
    ∃ (tally : Tally) (s' : Session),
      Sample.writer.installAll (Sample.path "w") Sample.mixed = tally.result s' ∧
      of s'.files [Utf8.encode "w"] (["std", "lib", "jil", "home"].map Utf8.encode) =
        tally.maps ∧
      tally.stop = none ∧
      tally.entries = [("A.java", .installed { path := Sample.path "w/A.class" }
          (Sample.path "home/jil/lib/std/A.class")),
        ("B.jil", .copied (Sample.path "home/jil/lib/std/B.jil"))] := by
  have hdirs : (match Sample.writer.provision Sample.mixed with
      | .ok _ s₁ => ((s₁.files.directoryAt [] (Sample.path "w")).toOption,
          (s₁.files.directoryAt [] Sample.settings.tree.std).toOption)
      | .error _ _ => (none, none)) =
      (some [Utf8.encode "w"], some (["std", "lib", "jil", "home"].map Utf8.encode)) := by
    decide +kernel
  cases hp : Sample.writer.provision Sample.mixed with
  | error e s₁ => simp [hp] at hdirs
  | ok u s₁ =>
    simp only [hp, Prod.mk.injEq] at hdirs
    have hD := Sample.eq_ok_of_toOption hdirs.1
    have hS := Sample.eq_ok_of_toOption hdirs.2
    have hadmissible : ∀ n, (s₁.files.content? (n :: [Utf8.encode "w"])).isSome →
        Sample.writer.Admissible (Sample.path "w") n := by
      intro n hn
      obtain ⟨content, hc⟩ := Option.isSome_iff_exists.1 hn
      obtain ⟨x, hx⟩ := content?_eq_some_iff.1 hc
      exact admissible_of_short (proper_of_node? hx) (by decide) (by decide)
    obtain ⟨S, names, answer, tally, s', hS', -, -, -, -, hall, hmaps, -⟩ :=
      installAll_refines (i := Sample.writer) (plain_of_nodes (by decide +kernel))
        (obedient_writing Sample.settings []) (Settings.tellsApart_of_default rfl rfl rfl)
        (hasRoom_of_ample rfl _ _) hp hD hadmissible (by
          intro h
          exact absurd (Except.ok.inj (hS.symm.trans h)) (by decide))
    obtain rfl := Except.ok.inj (hS.symm.trans hS')
    obtain ⟨s'', hend⟩ := Sample.installAll_of_runSorted Sample.runSorted_mixed
    have hresult := hall.symm.trans hend
    refine ⟨tally, s', hall, hmaps, ?_⟩
    unfold Tally.result at hresult
    cases hstop : tally.stop with
    | none =>
      simp only [hstop, EStateM.Result.ok.injEq, Report.mk.injEq] at hresult
      exact ⟨rfl, hresult.1⟩
    | some e => simp [hstop] at hresult

end Installer

end ModuleInstall
