import ModuleInstall.Proofs.Containment
import ModuleInstall.Proofs.Levels

/-! # A tree that is brought into shape -/

namespace ModuleInstall

open FileSystem ModuleInstall.Action

theorem FileSystem.Names.head?_of_join {fs : FileSystem} {here l : Location} {p : Path} {n : Name}
    (hn : IsPiece n) (h : fs.Names here (p.join n) l) : l.head? = (p.join n).fileName? := by
  obtain ⟨dir, rfl⟩ := h.head_of_join hn
  rw [Path.fileName?_join _ hn, List.head?_cons]

namespace Tree

variable {here l : Location} {home level : Path} {done rest : List Path} {fs fs' : FileSystem}

/-- The names of the levels, in any home directory. -/
def levelNames : List Name := [Utf8.encode "jil", Utf8.encode "lib", Utf8.encode "std"]

theorem fileNames_levels (home : Path) :
    (under home).levels.map Path.fileName? = levelNames.map some := by
  simp [levels, under, lib, std, levelNames, Path.fileName?_join, isPiece_jil, isPiece_lib,
    isPiece_std]

theorem head?_of_names_level (home : Path) (hm : level ∈ (under home).levels)
    (h : fs.Names here level l) : l.head? = level.fileName? := by
  simp only [levels, List.mem_cons, List.not_mem_nil, or_false] at hm
  rcases hm with rfl | rfl | rfl
  · exact h.head?_of_join isPiece_jil
  · exact h.head?_of_join isPiece_lib
  · exact h.head?_of_join isPiece_std

theorem node?_of_other_level (h : Shaped here done fs fs')
    (hlevels : (under home).levels = done ++ rest) (hm : level ∈ rest)
    (hn : fs.Names here level l ∨ fs'.Names here level l) : fs'.node? l = fs.node? l := by
  refine Decidable.byContradiction fun hc => ?_
  obtain ⟨⟨level', hm', hn'⟩, -⟩ := h.changed l hc
  have hsame : level'.fileName? = level.fileName? := by
    rw [← head?_of_names_level home (by simp [hlevels, hm']) hn',
      head?_of_names_level home (by simp [hlevels, hm]) (hn.elim h.names id)]
  have hnodup : ((under home).levels.map Path.fileName?).Nodup := by
    rw [fileNames_levels]
    decide
  rw [hlevels, List.map_append, List.nodup_append] at hnodup
  exact hnodup.2.2 _ (List.mem_map_of_mem hm') _ (List.mem_map_of_mem hm) hsame

/-- A tree that has been brought into shape stands, nothing but the entries of its levels has
changed, and there is nothing left to be done. Where a level fails, all levels above it are
directories, and the entries of that level and of those below it are what they were. -/
theorem provision_establishes (here : Location) (home : Path) (s : Session) :
    (∀ s', (under home).provision here s = .ok () s' →
      (under home).Stands here s'.files ∧ Shaped here (under home).levels s.files s'.files ∧
        ∀ t : Session, t.files = s'.files → (under home).provision here t = .ok () t) ∧
    ∀ e s', (under home).provision here s = .error e s' →
      ∃ done rest, (under home).levels = done ++ e.path :: rest ∧
        Shaped here done s.files s'.files ∧
        ∀ level ∈ e.path :: rest, ∀ l,
          s.files.Names here level l ∨ s'.files.Names here level l →
            s'.files.node? l = s.files.node? l := by
  simp only [provision_eq_ensureAll]
  refine ⟨fun s' h => ?_, fun e s' h => ?_⟩
  · have hshaped := ensureAll_ok h
    refine ⟨hshaped.directories, hshaped, fun t ht => ?_⟩
    exact provision_of_stands (ht ▸ hshaped.directories)
  · obtain ⟨done, rest, hlevels, hshaped⟩ := ensureAll_error h
    exact ⟨done, rest, hlevels, hshaped, fun level hm l hn =>
      node?_of_other_level hshaped hlevels hm hn⟩

theorem provision_establishes_stray :
    let tree := under ⟨[]⟩
    let barred := under (Sample.path "home")
    (∃ s', tree.provision [] Sample.stray = .ok () s' ∧ tree.Stands [] s'.files ∧
      Shaped [] tree.levels Sample.stray.files s'.files ∧ tree.provision [] s' = .ok () s') ∧
    ∃ s', barred.provision [] Sample.barred =
        .error (.create barred.std (.code .tooManyLinks)) s' ∧
      (∃ fixed, s'.files.stat [] barred.lib = .ok (.directory fixed)) ∧
      s'.files.node? [Utf8.encode "std", Utf8.encode "lib", Utf8.encode "real"] =
        some (.link (Utf8.encode "std")) := by
  intro tree barred
  have hok : value? (tree.provision [] Sample.stray) = some () := by decide +kernel
  have hfails : Sample.failure? (barred.provision [] Sample.barred) =
      some (.create barred.std (.code .tooManyLinks)) := by decide +kernel
  refine ⟨⟨_, value?_eq_some_iff.1 hok, ?_⟩, ⟨_, Sample.eq_error_of_failure? hfails, ?_⟩⟩
  · obtain ⟨hstands, hshaped, hagain⟩ :=
      (provision_establishes [] ⟨[]⟩ _).1 _ (value?_eq_some_iff.1 hok)
    exact ⟨hstands, hshaped, hagain _ rfl⟩
  · obtain ⟨done, rest, hlevels, hshaped, hkept⟩ :=
      (provision_establishes [] (Sample.path "home") _).2 _ _ (Sample.eq_error_of_failure? hfails)
    have hdone : done = [barred.root, barred.lib] := by
      have hapart : barred.root ≠ barred.std ∧ barred.lib ≠ barred.std := by decide
      rcases done with _ | ⟨a, _ | ⟨b, _ | ⟨c, done⟩⟩⟩ <;>
        simp_all [levels, ProvisionError.path, barred]
    have hnames : Sample.barred.files.Names [] barred.std
        [Utf8.encode "std", Utf8.encode "lib", Utf8.encode "real"] :=
      ⟨_, _, false, Sample.eq_ok_of_toOption (by decide +kernel), rfl⟩
    refine ⟨hshaped.directories _ (by simp [hdone]), ?_⟩
    rw [hkept barred.std (List.mem_cons_self ..) _ (Or.inl hnames)]
    decide +kernel

end Tree

end ModuleInstall
