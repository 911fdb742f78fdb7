import ModuleInstall.FileSystem.Route
import ModuleInstall.Path.Basic

/-! # Spellings of paths -/

namespace ModuleInstall

open Bytes (slash dot)

section Pieces

variable {α : Type} {l m : List α}

theorem dropTrailing_concat (p : α → Bool) (l : List α) {a : α} (h : p a = false) :
    dropTrailing p (l ++ [a]) = l ++ [a] := by
  induction l with
  | nil => simp [dropTrailing, h]
  | cons b rest ih =>
    rw [List.cons_append, dropTrailing, ih]
    cases rest <;> rfl

theorem dropTrailing_append {p : α → Bool} {m : List α} (h : dropTrailing p m ≠ []) (l : List α) :
    dropTrailing p (l ++ m) = l ++ dropTrailing p m := by
  induction l with
  | nil => rfl
  | cons a rest ih =>
    obtain ⟨b, kept, hm⟩ := List.exists_cons_of_ne_nil h
    rw [List.cons_append, dropTrailing, ih, hm]
    cases rest <;> rfl

theorem exists_dropTrailing (p : α → Bool) (l : List α) :
    ∃ t, l = dropTrailing p l ++ t ∧ ∀ a ∈ t, p a = true := by
  induction l with
  | nil => exact ⟨[], rfl, by simp⟩
  | cons a rest ih =>
    obtain ⟨t, ht, hp⟩ := ih
    rw [dropTrailing]
    cases hd : dropTrailing p rest with
    | nil =>
      rw [hd, List.nil_append] at ht
      by_cases ha : p a = true
      · refine ⟨a :: t, by simp [ha, ← ht], ?_⟩
        rw [List.forall_mem_cons]
        exact ⟨ha, hp⟩
      · exact ⟨t, by simp [ha, ← ht], hp⟩
    | cons b kept =>
      rw [hd] at ht
      exact ⟨t, by simp [← ht], hp⟩

theorem not_of_getLast?_dropTrailing {p : α → Bool} {a : α}
    (h : (dropTrailing p l).getLast? = some a) : p a = false := by
  induction l with
  | nil => simp [dropTrailing] at h
  | cons b rest ih =>
    rw [dropTrailing] at h
    cases hd : dropTrailing p rest with
    | nil => by_cases hb : p b = true <;> simp_all
    | cons c kept =>
      rw [hd] at h ih
      exact ih (by simpa [List.getLast?_cons_cons] using h)

theorem dropTrailing_eq_nil_iff {p : α → Bool} :
    dropTrailing p l = [] ↔ ∀ a ∈ l, p a = true := by
  obtain ⟨t, ht, hp⟩ := exists_dropTrailing p l
  constructor
  · intro h
    rw [h, List.nil_append] at ht
    rwa [ht]
  · intro h
    cases hl : (dropTrailing p l).getLast? with
    | none => exact List.getLast?_eq_none_iff.1 hl
    | some a =>
      have hkept := not_of_getLast?_dropTrailing hl
      have hmem : a ∈ l := by
        rw [ht]
        exact List.mem_append_left _ (List.mem_of_getLast? hl)
      rw [h a hmem] at hkept
      cases hkept

variable [DecidableEq α] {sep : α}

theorem pieces_of_not_mem (h : sep ∉ l) : pieces sep l = (l, []) := by
  induction l with
  | nil => rfl
  | cons a rest ih =>
    rw [List.mem_cons, not_or] at h
    simp [pieces, ih h.2, Ne.symm h.1]

theorem pieces_append (l m : List α) :
    pieces sep (l ++ sep :: m) =
      ((pieces sep l).1, (pieces sep l).2 ++ (pieces sep m).1 :: (pieces sep m).2) := by
  induction l with
  | nil => simp [pieces]
  | cons a rest ih =>
    by_cases h : a = sep <;> simp [pieces, ih, h]

theorem pieces_glue {first : List α} {others : List (List α)} (hf : sep ∉ first)
    (ho : ∀ p ∈ others, sep ∉ p) : pieces sep (glue sep first others) = (first, others) := by
  induction others generalizing first with
  | nil => simpa [glue] using pieces_of_not_mem hf
  | cons p others ih =>
    have hg : glue sep first (p :: others) = first ++ sep :: glue sep p others := by simp [glue]
    rw [List.forall_mem_cons] at ho
    rw [hg, pieces_append, ih ho.1 ho.2, pieces_of_not_mem hf]
    simp

theorem pieces_fst_eq_nil_iff (sep : α) (h : l ≠ []) :
    (pieces sep l).1 = [] ↔ l.head? = some sep := by
  obtain ⟨a, rest, rfl⟩ := List.exists_cons_of_ne_nil h
  by_cases ha : a = sep <;> simp [pieces, ha]

end Pieces

/-! ## One component -/

/-- A byte string that is one component of a path, and a name. -/
structure IsPiece (n : Bytes) : Prop where
  ne_nil : n ≠ []
  ne_dot : n ≠ [dot]
  ne_up : n ≠ [dot, dot]
  no_slash : slash ∉ n

instance (n : Bytes) : Decidable (IsPiece n) :=
  decidable_of_iff (n ≠ [] ∧ n ≠ [dot] ∧ n ≠ [dot, dot] ∧ slash ∉ n)
    ⟨fun ⟨hne, hdot, hup, hno⟩ => ⟨hne, hdot, hup, hno⟩,
      fun h => ⟨h.ne_nil, h.ne_dot, h.ne_up, h.no_slash⟩⟩

theorem Component.ofPiece_eq_name_iff {piece n : Bytes} :
    Component.ofPiece piece = .name n ↔ piece = n ∧ n ≠ [dot] ∧ n ≠ [dot, dot] := by
  unfold Component.ofPiece
  repeat' split
  all_goals grind

theorem Name.Proper.isPiece {n : Name} (h : n.Proper) : IsPiece n :=
  ⟨h.1, h.2.1, h.2.2.1, h.2.2.2.1⟩

/-- A byte string that goes on from a directory, be it several components. -/
structure IsRelative (x : Bytes) : Prop where
  ne_nil : x ≠ []
  no_root : x.head? ≠ some slash

theorem IsRelative.isAbsolute_eq {x : Bytes} (h : IsRelative x) :
    (Path.mk x).isAbsolute = false := by
  rw [Path.isAbsolute, beq_eq_false_iff_ne]
  exact h.no_root

namespace IsPiece

variable {n : Bytes}

theorem isRelative (h : IsPiece n) : IsRelative n := by
  refine ⟨h.ne_nil, fun hr => h.no_slash ?_⟩
  exact List.mem_of_mem_head? hr

theorem silent_eq (h : IsPiece n) : Path.silent n = false := by
  simp [Path.silent, h.ne_nil, h.ne_dot]

theorem component (h : IsPiece n) : Component.ofPiece n = .name n := by
  simp [Component.ofPiece, h.ne_dot, h.ne_up]

theorem step (h : IsPiece n) : Step.ofPiece n = .name n := by
  simp [Step.ofPiece, h.ne_dot, h.ne_up]

end IsPiece

namespace Path

variable {p : Path} {n a x : Bytes}

/-! ## A name behind a directory -/

theorem join_of_empty (h : IsRelative x) : (Path.mk []).join x = ⟨x⟩ := by
  simp [join, h.isAbsolute_eq]

theorem exists_join (h : IsRelative x) (hp : p.bytes ≠ []) :
    ∃ q, p.join x = ⟨q ++ slash :: x⟩ ∧ (p.bytes = q ∨ p.bytes = q ++ [slash]) := by
  by_cases hl : p.bytes.getLast? = some slash
  · obtain ⟨q, hq⟩ := List.getLast?_eq_some_iff.1 hl
    refine ⟨q, ?_, Or.inr hq⟩
    rw [join, h.isAbsolute_eq, if_neg (by simp), if_pos (Or.inr hl), hq]
    simp
  · refine ⟨p.bytes, ?_, Or.inl rfl⟩
    rw [join, h.isAbsolute_eq, if_neg (by simp), if_neg (by simp [hp, hl])]

theorem length_join_le (p : Path) (n : Bytes) :
    (p.join n).bytes.length ≤ p.bytes.length + 1 + n.length := by
  unfold join
  repeat' split
  all_goals simp only [List.length_append, List.length_cons]
  all_goals omega

theorem le_length_join (h : IsRelative x) :
    p.bytes.length + x.length ≤ (p.join x).bytes.length := by
  by_cases hp : p.bytes = []
  · obtain ⟨bytes⟩ := p
    obtain rfl : bytes = [] := hp
    simp [join_of_empty h]
  · obtain ⟨q, hq, hor⟩ := exists_join h hp
    rw [hq]
    rcases hor with hp | hp <;> rw [hp] <;>
      simp only [List.length_append, List.length_cons, List.length_nil] <;> omega

theorem splitLast_append (q : Bytes) (h : IsPiece n) :
    (Path.mk (q ++ slash :: n)).splitLast =
      some (ofPieces (pieces slash q).1 (dropTrailing silent (pieces slash q).2), .name n) := by
  have hn : pieces slash n = (n, []) := pieces_of_not_mem h.no_slash
  simp only [splitLast, tailPieces, pieces_append, hn]
  rw [dropTrailing_concat _ _ h.silent_eq]
  simp [h.component]

@[simp] theorem fileName?_join (p : Path) (h : IsPiece n) : (p.join n).fileName? = some n := by
  obtain ⟨bytes⟩ := p
  by_cases hp : bytes = []
  · have hn : pieces slash n = (n, []) := pieces_of_not_mem h.no_slash
    rw [hp, join_of_empty h.isRelative]
    simp [fileName?, splitLast, tailPieces, hn, dropTrailing, h.ne_nil, h.component]
  · obtain ⟨q, hq, -⟩ := exists_join h.isRelative (p := ⟨bytes⟩) hp
    rw [hq, fileName?, splitLast_append q h]

theorem fileName?_join_eq {q : Path} (hx : IsRelative x) (hp : p.bytes ≠ []) (hq : q.bytes ≠ [])
    (h : dropTrailing silent ((pieces slash x).1 :: (pieces slash x).2) ≠ []) :
    (p.join x).fileName? = (q.join x).fileName? := by
  have hname : ∀ b c : Bytes,
      (Path.mk (b ++ slash :: x)).fileName? = (Path.mk (c ++ slash :: x)).fileName? := by
    intro b c
    simp only [fileName?, splitLast, tailPieces, pieces_append, dropTrailing_append h]
    rw [List.getLast?_append, List.getLast?_append, List.getLast?_eq_some_getLast h]
    dsimp only [Option.some_or]
    cases Component.ofPiece _ <;> rfl
  obtain ⟨b, hb, -⟩ := exists_join hx hp
  obtain ⟨c, hc, -⟩ := exists_join hx hq
  rw [hb, hc, hname]

theorem exists_piece_of_splitLast {dir : Path} {c : Component} (h : p.splitLast = some (dir, c)) :
    ∃ piece, c = .ofPiece piece ∧ piece ≠ [] ∧ slash ∉ piece := by
  have hno := not_mem_pieces slash p.bytes
  unfold splitLast at h
  cases hl : p.tailPieces.getLast? with
  | none =>
    rw [hl] at h
    by_cases hf : (pieces slash p.bytes).1 = []
    · simp [hf] at h
    · simp only [hf, if_false] at h
      cases h
      exact ⟨_, rfl, hf, hno.1⟩
  | some last =>
    rw [hl] at h
    cases h
    have hsilent := not_of_getLast?_dropTrailing hl
    obtain ⟨t, ht, -⟩ := exists_dropTrailing silent (pieces slash p.bytes).2
    refine ⟨last, rfl, fun he => by simp [silent, he] at hsilent, hno.2 last ?_⟩
    rw [ht]
    exact List.mem_append_left _ (List.mem_of_getLast? hl)

theorem isPiece_of_fileName? (h : p.fileName? = some n) : IsPiece n := by
  unfold fileName? at h
  split at h
  · rename_i dir m hs
    cases h
    obtain ⟨piece, hc, hne, hno⟩ := exists_piece_of_splitLast hs
    obtain ⟨rfl, hdot, hup⟩ := Component.ofPiece_eq_name_iff.1 hc.symm
    exact ⟨hne, hdot, hup, hno⟩
  · cases h

theorem join_injective (p : Path) {m : Bytes} (hn : IsPiece n) (hm : IsPiece m)
    (h : p.join n = p.join m) : n = m := by
  have := fileName?_join p hn
  rw [h, fileName?_join p hm] at this
  exact (Option.some.inj this).symm

theorem fileName?_withFileName (p : Path) (h : IsPiece a) :
    (p.withFileName a).fileName? = some a := by
  unfold withFileName
  split <;> exact fileName?_join _ h

/-! ## Routes -/

/-- The steps that pieces stand for. -/
def stepsOf (ps : List Bytes) : List Step := (ps.filter (· ≠ [])).map Step.ofPiece

theorem stepsOf_append (ps qs : List Bytes) : stepsOf (ps ++ qs) = stepsOf ps ++ stepsOf qs := by
  simp [stepsOf]

theorem stepsOf_piece (h : IsPiece n) : stepsOf [n] = [.name n] := by
  simp [stepsOf, h.ne_nil, h.step]

theorem stepsOf_silent {ps : List Bytes} (h : ∀ piece ∈ ps, silent piece = true) :
    ∀ step ∈ stepsOf ps, step = .here := by
  intro step hs
  obtain ⟨piece, hp, rfl⟩ := List.mem_map.1 hs
  obtain ⟨hp, hne⟩ := List.mem_filter.1 hp
  have hs := h piece hp
  simp only [silent, Bool.or_eq_true, decide_eq_true_eq] at hs hne
  rcases hs with hs | hs
  · exact absurd hs hne
  · simp [Step.ofPiece, hs]

theorem steps_ofBytes (bs : Bytes) :
    (Route.ofBytes bs).steps = stepsOf ((pieces slash bs).1 :: (pieces slash bs).2) := rfl

theorem fromRoot_ofBytes {bs : Bytes} (h : bs ≠ []) :
    (Route.ofBytes bs).fromRoot = decide ((pieces slash bs).1 = []) := by
  have := pieces_fst_eq_nil_iff slash h
  rw [Bool.eq_iff_iff, decide_eq_true_eq, this]
  simp [Route.ofBytes]

theorem fromRoot_of_relative (h : IsRelative x) : (Route.ofBytes x).fromRoot = false := by
  rw [Route.ofBytes, beq_eq_false_iff_ne]
  exact h.no_root

theorem ofBytes_append (q : Bytes) (h : IsRelative x) :
    Route.ofBytes (q ++ slash :: x) =
      { fromRoot := decide ((pieces slash q).1 = [])
        steps := stepsOf ((pieces slash q).1 :: (pieces slash q).2) ++ (Route.ofBytes x).steps
        slash := (Route.ofBytes x).slash } := by
  have hroot : (Route.ofBytes (q ++ slash :: x)).fromRoot = decide ((pieces slash q).1 = []) := by
    rw [fromRoot_ofBytes (by simp), pieces_append]
  have hsteps : (Route.ofBytes (q ++ slash :: x)).steps =
      stepsOf ((pieces slash q).1 :: (pieces slash q).2) ++ (Route.ofBytes x).steps := by
    rw [steps_ofBytes, steps_ofBytes, pieces_append, ← stepsOf_append]
    rfl
  have hlast : (q ++ slash :: x).getLast? = x.getLast? := by
    obtain ⟨b, rest, rfl⟩ := List.exists_cons_of_ne_nil h.ne_nil
    simp [List.getLast?_append, List.getLast?_cons]
  have hslash : (Route.ofBytes (q ++ slash :: x)).slash = (Route.ofBytes x).slash := by
    simp only [Route.ofBytes, hlast]
  rw [← hroot, ← hsteps, ← hslash]

theorem ofBytes_piece (h : IsPiece n) :
    (Route.ofBytes n).steps = [.name n] ∧ (Route.ofBytes n).slash = false := by
  constructor
  · rw [steps_ofBytes, pieces_of_not_mem h.no_slash, stepsOf_piece h]
  · rw [Route.ofBytes, beq_eq_false_iff_ne]
    exact fun hl => h.no_slash (List.mem_of_getLast? hl)

theorem ofBytes_dir {q : Bytes} (hp : p.bytes = q ∨ p.bytes = q ++ [slash]) (hne : p.bytes ≠ []) :
    (Route.ofBytes p.bytes).fromRoot = decide ((pieces slash q).1 = []) ∧
      (Route.ofBytes p.bytes).steps = stepsOf ((pieces slash q).1 :: (pieces slash q).2) := by
  have hpieces : (pieces slash p.bytes).1 = (pieces slash q).1 ∧
      stepsOf ((pieces slash p.bytes).1 :: (pieces slash p.bytes).2) =
        stepsOf ((pieces slash q).1 :: (pieces slash q).2) := by
    rcases hp with hp | hp
    · rw [hp]
      exact ⟨rfl, rfl⟩
    · rw [hp, pieces_append]
      refine ⟨rfl, ?_⟩
      rw [← List.cons_append, stepsOf_append]
      simp [pieces, stepsOf]
  refine ⟨?_, (steps_ofBytes _).trans hpieces.2⟩
  rw [fromRoot_ofBytes hne, hpieces.1]

theorem ofBytes_join (hp : p.bytes ≠ []) (h : IsRelative x) :
    Route.ofBytes (p.join x).bytes =
      { fromRoot := (Route.ofBytes p.bytes).fromRoot
        steps := (Route.ofBytes p.bytes).steps ++ (Route.ofBytes x).steps
        slash := (Route.ofBytes x).slash } := by
  obtain ⟨q, hq, hor⟩ := exists_join h hp
  obtain ⟨hr, hs⟩ := ofBytes_dir hor hp
  rw [hq, hr, hs]
  exact ofBytes_append q h

theorem glue_prefix (first : Bytes) (kept more : List Bytes) :
    glue slash first kept <+: glue slash first (kept ++ more) := by
  unfold glue
  rw [List.flatMap_append, ← List.append_assoc]
  exact List.prefix_append _ _

theorem parent?_join (hp : p.bytes ≠ []) (h : IsPiece n) :
    ∃ dir, (p.join n).parent? = some dir ∧ dir.bytes ≠ [] ∧ dir.bytes <+: p.bytes ∧
      (Route.ofBytes dir.bytes).fromRoot = (Route.ofBytes p.bytes).fromRoot ∧
      ∃ heres, (∀ step ∈ heres, step = .here) ∧
        (Route.ofBytes p.bytes).steps = (Route.ofBytes dir.bytes).steps ++ heres := by
  obtain ⟨q, hq, hor⟩ := exists_join h.isRelative hp
  obtain ⟨hr, hs⟩ := ofBytes_dir hor hp
  have hno := not_mem_pieces slash q
  have hwhole := glue_pieces slash q
  have hpre : q <+: p.bytes := by
    rcases hor with hp | hp
    · exact ⟨[], by rw [hp, List.append_nil]⟩
    · exact ⟨[slash], hp.symm⟩
  obtain ⟨t, ht, hsilent⟩ := exists_dropTrailing silent (pieces slash q).2
  rw [hq, parent?, splitLast_append q h, hr, hs]
  refine ⟨_, rfl, ?_⟩
  generalize hfirst : (pieces slash q).1 = first at *
  generalize hothers : (pieces slash q).2 = others at *
  generalize hkept : dropTrailing silent others = kept at *
  have hsteps : stepsOf (first :: others) = stepsOf (first :: kept) ++ stepsOf t := by
    rw [ht, ← stepsOf_append, List.cons_append]
  unfold ofPieces
  split
  · rename_i hboth
    have hslash : p.bytes.head? = some slash := by
      rw [fromRoot_ofBytes hp, decide_eq_decide, pieces_fst_eq_nil_iff slash hp] at hr
      exact hr.2 hboth.1
    refine ⟨by simp, ?_, by simp [Route.ofBytes, hboth.1], stepsOf t, stepsOf_silent hsilent, ?_⟩
    · obtain ⟨b, rest, hb⟩ := List.exists_cons_of_ne_nil hp
      rw [hb, List.head?_cons, Option.some.injEq] at hslash
      rw [hb, hslash]
      exact List.prefix_append [slash] rest
    · rw [hsteps, hboth.1, hboth.2]
      rfl
  · rename_i hnot
    have hglue : pieces slash (glue slash first kept) = (first, kept) :=
      pieces_glue hno.1 fun piece hm => hno.2 piece (by rw [ht]; exact List.mem_append_left _ hm)
    have hne : glue slash first kept ≠ [] := by
      intro he
      rw [he] at hglue
      cases hglue
      exact hnot ⟨rfl, rfl⟩
    refine ⟨hne, ?_, ?_, stepsOf t, stepsOf_silent hsilent, ?_⟩
    · refine List.IsPrefix.trans ?_ hpre
      rw [← hwhole, ht]
      exact glue_prefix first kept t
    · rw [fromRoot_ofBytes hne, hglue]
    · rw [hsteps, steps_ofBytes, hglue]

theorem join_join (p : Path) (ha : IsPiece a) (hx : IsRelative x) :
    (p.join a).join x = ⟨(p.join a).bytes ++ slash :: x⟩ := by
  have hlast : (p.join a).bytes.getLast? = some (a.getLast ha.ne_nil) := by
    by_cases hp : p.bytes = []
    · obtain ⟨bytes⟩ := p
      obtain rfl : bytes = [] := hp
      rw [join_of_empty ha.isRelative, List.getLast?_eq_some_getLast ha.ne_nil]
    · obtain ⟨q, hq, -⟩ := exists_join ha.isRelative hp
      rw [hq]
      simp [List.getLast?_append, List.getLast?_cons, List.getLast?_eq_some_getLast ha.ne_nil]
  have hend : a.getLast ha.ne_nil ≠ slash :=
    fun he => ha.no_slash (he ▸ List.getLast_mem ha.ne_nil)
  have hne : (p.join a).bytes ≠ [] := by
    intro he
    simp [he] at hlast
  rw [join, hx.isAbsolute_eq, if_neg (by simp), if_neg (by simp [hlast, hend, hne])]

theorem parent?_join_join (p : Path) (ha : IsPiece a) (h : IsPiece n) :
    ((p.join a).join n).parent? = some (p.join a) := by
  rw [join_join p ha h.isRelative, parent?, splitLast_append _ h]
  by_cases hp : p.bytes = []
  · obtain ⟨bytes⟩ := p
    obtain rfl : bytes = [] := hp
    rw [join_of_empty ha.isRelative, pieces_of_not_mem ha.no_slash]
    simp [ofPieces, dropTrailing, glue, ha.ne_nil]
  · obtain ⟨q, hq, -⟩ := exists_join ha.isRelative hp
    have hpieces : pieces slash (q ++ slash :: a) =
        ((pieces slash q).1, (pieces slash q).2 ++ [a]) := by
      rw [pieces_append, pieces_of_not_mem ha.no_slash]
    have hwhole := glue_pieces slash (q ++ slash :: a)
    rw [hpieces] at hwhole
    rw [hq, hpieces, dropTrailing_concat _ _ ha.silent_eq]
    simp [ofPieces, hwhole]

theorem withFileName_join (h : IsPiece n) {dir : Path} (hdir : (p.join n).parent? = some dir)
    (x : Bytes) : (p.join n).withFileName x = dir.join x := by
  rw [withFileName, fileName?_join p h, hdir]

theorem route_eq_ok {route : Route} (h : p.route = .ok route) :
    p.bytes ≠ [] ∧ route = .ofBytes p.bytes := by
  unfold Path.route at h
  repeat' split at h
  all_goals cases h
  exact ⟨‹_›, rfl⟩

theorem route_of_prefix {dir : Path} {route : Route} (h : p.route = .ok route)
    (hpre : dir.bytes <+: p.bytes) (hne : dir.bytes ≠ []) :
    dir.route = .ok (.ofBytes dir.bytes) := by
  have hlen := hpre.length_le
  have hnul : (0 : UInt8) ∈ dir.bytes → (0 : UInt8) ∈ p.bytes := fun h0 => hpre.subset h0
  unfold Path.route at h ⊢
  repeat' split at h
  all_goals cases h
  rw [if_neg (mt hnul ‹_›), if_neg hne, if_neg (by omega)]

theorem route_of_join {route : Route} (hp : p.bytes ≠ []) (hx : IsRelative x)
    (h : (p.join x).route = .ok route) : (Path.mk x).route = .ok (.ofBytes x) := by
  obtain ⟨q, hq, -⟩ := exists_join hx hp
  have hlen : x.length ≤ (p.join x).bytes.length := by
    rw [hq]
    simp only [List.length_append, List.length_cons]
    omega
  have hnul : (0 : UInt8) ∈ x → (0 : UInt8) ∈ (p.join x).bytes := by
    intro h0
    rw [hq]
    simp [h0]
  unfold Path.route at h ⊢
  repeat' split at h
  all_goals cases h
  rw [if_neg (mt hnul ‹_›), if_neg hx.ne_nil, if_neg (by simp only; omega)]

theorem not_mem_of_route {route : Route} (h : p.route = .ok route) : (0 : UInt8) ∉ p.bytes := by
  intro h0
  simp [Path.route, h0] at h

theorem route_join_eq {route : Route} (hp : p.route = .ok route) (hx : IsRelative x) :
    (p.join x).route =
      if (0 : UInt8) ∈ x then .error .nulInPath
      else if Route.maxLength ≤ (p.join x).bytes.length then .error (.code .nameTooLong)
      else .ok (.ofBytes (p.join x).bytes) := by
  obtain ⟨hne, -⟩ := route_eq_ok hp
  obtain ⟨q, hq, hor⟩ := exists_join hx hne
  have hp0 := not_mem_of_route hp
  have hq0 : (0 : UInt8) ∉ q := by
    intro h0
    refine hp0 ?_
    rcases hor with hp | hp <;> rw [hp] <;> simp [h0]
  have h0 : (0 : UInt8) ∈ (p.join x).bytes ↔ (0 : UInt8) ∈ x := by
    rw [hq]
    simp only [List.mem_append, List.mem_cons, hq0, false_or]
    exact or_iff_right (by decide)
  have hbytes : (p.join x).bytes ≠ [] := by
    rw [hq]
    simp
  rw [Path.route, if_neg hbytes]
  simp only [h0]

theorem route_join {route : Route} (hp : p.route = .ok route) (hx : IsRelative x)
    (hnul : (0 : UInt8) ∉ x) (hlen : (p.join x).bytes.length < Route.maxLength) :
    (p.join x).route = .ok (.ofBytes (p.join x).bytes) := by
  rw [route_join_eq hp hx, if_neg hnul, if_neg (Nat.not_le.2 hlen)]

theorem steps_ne_nil (hx : IsRelative x) : (Route.ofBytes x).steps ≠ [] := by
  have hfirst : (pieces slash x).1 ≠ [] := by
    rw [ne_eq, pieces_fst_eq_nil_iff slash hx.ne_nil]
    exact hx.no_root
  rw [steps_ofBytes]
  simp [stepsOf, hfirst]

end Path

end ModuleInstall
