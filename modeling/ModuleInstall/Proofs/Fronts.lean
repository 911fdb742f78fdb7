import ModuleInstall.Proofs.Containment

/-!
# In front of a file name

The bytes of a path with a file name are those in front of the name, the name, and a tail that says
nothing.
-/

namespace ModuleInstall

open Bytes (slash dot)

theorem dropTrailing_dropTrailing {α : Type} (p : α → Bool) (l : List α) :
    dropTrailing p (dropTrailing p l) = dropTrailing p l := by
  cases hl : (dropTrailing p l).getLast? with
  | none =>
    rw [List.getLast?_eq_none_iff.1 hl]
    rfl
  | some a =>
    obtain ⟨kept, hk⟩ := List.getLast?_eq_some_iff.1 hl
    rw [hk, dropTrailing_concat p kept (not_of_getLast?_dropTrailing hl)]

namespace Path

variable {p q dir : Path} {n m x tail lead first : Bytes} {ps others : List Bytes} {c : Component}

/-! ## Around a file name -/

theorem silent_eq_true_iff {piece : Bytes} : silent piece = true ↔ piece = [] ∨ piece = [dot] := by
  simp [silent]

theorem no_slash_of_silent {piece : Bytes} (h : silent piece = true) : slash ∉ piece := by
  rcases silent_eq_true_iff.1 h with rfl | rfl <;> decide

/-- What can stand behind the last component of a path and says nothing. -/
def IsIdle (tail : Bytes) : Prop :=
  ∃ ps, (∀ piece ∈ ps, silent piece = true) ∧ tail = glue slash [] ps

theorem isIdle_nil : IsIdle [] := ⟨[], by simp, rfl⟩

theorem IsIdle.take (h : IsIdle tail) (k : Nat) : IsIdle (tail.take k) := by
  obtain ⟨ps, hs, rfl⟩ := h
  -- A piece is cut in front of its slash, behind it, or behind its dot.
  induction ps generalizing k with
  | nil => simpa [glue] using isIdle_nil
  | cons piece ps ih =>
    rw [List.forall_mem_cons] at hs
    have hcons : ∀ (first : Bytes) {rest : Bytes}, silent first = true → IsIdle rest →
        IsIdle (slash :: (first ++ rest)) := by
      rintro first rest hone ⟨more, hmore, rfl⟩
      exact ⟨first :: more, by simpa [hone] using hmore, by simp [glue]⟩
    cases k with
    | zero => exact isIdle_nil
    | succ k =>
      rcases silent_eq_true_iff.1 hs.1 with he | he
      · have := hcons [] rfl (ih k hs.2)
        simpa [glue, he] using this
      cases k with
      | zero =>
        have := hcons [] rfl isIdle_nil
        simpa [glue, he] using this
      | succ k =>
        have := hcons [dot] rfl (ih k hs.2)
        simpa [glue, he] using this

theorem IsIdle.eq_nil (h : IsIdle tail) (hs : ¬ [slash] <:+ tail) (hd : ¬ [slash, dot] <:+ tail) :
    tail = [] := by
  obtain ⟨ps, hall, rfl⟩ := h
  rcases List.eq_nil_or_concat ps with rfl | ⟨init, piece, rfl⟩
  · rfl
  have hglue : glue slash [] (init.concat piece) = glue slash [] init ++ slash :: piece := by
    simp [glue]
  rw [hglue] at hs hd
  rcases silent_eq_true_iff.1 (hall piece (by simp)) with rfl | rfl
  · exact absurd (List.suffix_append _ _) hs
  · exact absurd (List.suffix_append _ _) hd

theorem dropTrailing_silent_cons (hm : silent m = false) (hs : ∀ piece ∈ ps, silent piece = true) :
    dropTrailing silent (m :: ps) = [m] := by
  rw [dropTrailing, dropTrailing_eq_nil_iff.2 hs]
  simp [hm]

theorem splitLast_glue (hf : slash ∉ first) (ho : ∀ piece ∈ others, slash ∉ piece)
    (hm : silent m = false) (hno : slash ∉ m) (hs : ∀ piece ∈ ps, silent piece = true) :
    (Path.mk (glue slash first (others ++ m :: ps))).splitLast =
        some (ofPieces first (dropTrailing silent others), .ofPiece m) ∧
      (Path.mk (glue slash first (others ++ m :: ps))).lead =
        glue slash first others ++ [slash] := by
  have hall : ∀ piece ∈ others ++ m :: ps, slash ∉ piece := by
    intro piece hp
    rcases List.mem_append.1 hp with hp | hp
    · exact ho piece hp
    rcases List.mem_cons.1 hp with rfl | hp
    · exact hno
    · exact no_slash_of_silent (hs piece hp)
  have htail : (Path.mk (glue slash first (others ++ m :: ps))).tailPieces = others ++ [m] := by
    have hcut := dropTrailing_silent_cons hm hs
    rw [tailPieces, pieces_glue hf hall, dropTrailing_append (by simp [hcut]), hcut]
  constructor
  · simp [splitLast, htail, pieces_glue hf hall]
  · simp [Path.lead, htail, pieces_glue hf hall]

theorem splitLast_glue_first (hne : m ≠ []) (hno : slash ∉ m)
    (hs : ∀ piece ∈ ps, silent piece = true) :
    (Path.mk (glue slash m ps)).splitLast = some (⟨[]⟩, .ofPiece m) ∧
      (Path.mk (glue slash m ps)).lead = [] := by
  have hcut : pieces slash (glue slash m ps) = (m, ps) :=
    pieces_glue hno fun piece hp => no_slash_of_silent (hs piece hp)
  have htail : (Path.mk (glue slash m ps)).tailPieces = [] := by
    rw [tailPieces, hcut]
    exact dropTrailing_eq_nil_iff.2 hs
  constructor
  · simp [splitLast, htail, hcut, hne]
  · simp [Path.lead, htail]

theorem splitLast_join_ofPieces (hf : slash ∉ first) (ho : ∀ piece ∈ others, slash ∉ piece)
    (hkept : dropTrailing silent others = others) (hm : IsPiece m) :
    ((ofPieces first others).join m).splitLast = some (ofPieces first others, .name m) := by
  by_cases hboth : first = [] ∧ others = []
  · obtain ⟨rfl, rfl⟩ := hboth
    have hjoin : (ofPieces [] []).join m = ⟨[] ++ slash :: m⟩ := by
      simp [ofPieces, join, hm.isRelative.isAbsolute_eq]
    rw [hjoin, splitLast_append [] hm]
    rfl
  have hpath : ofPieces first others = ⟨glue slash first others⟩ := if_neg hboth
  have hcut := pieces_glue hf ho
  have hne : glue slash first others ≠ [] := by
    intro he
    rw [he] at hcut
    cases hcut
    exact hboth ⟨rfl, rfl⟩
  obtain ⟨q, hq, hbytes⟩ := exists_join (p := ofPieces first others) hm.isRelative (by rwa [hpath])
  rw [hq, splitLast_append q hm]
  rw [hpath] at hbytes
  rcases hbytes with hbytes | hbytes
  · rw [← show glue slash first others = q from hbytes, hcut, hkept]
  · -- The last piece would be empty.
    rw [show glue slash first others = q ++ [slash] from hbytes, pieces_append] at hcut
    have hlast : (pieces slash q).2 ++ [[]] = others := congrArg Prod.snd hcut
    have hsays : silent ([] : Bytes) = false := by
      refine not_of_getLast?_dropTrailing (l := others) ?_
      rw [hkept, ← hlast, List.getLast?_concat]
    cases hsays

/-- What stands in front of the entries of a directory, however the paths go on. -/
structure Front (before : Bytes) (dir : Path) : Prop where
  splitLast : ∀ {m tail : Bytes}, silent m = false → slash ∉ m → IsIdle tail →
    (Path.mk (before ++ m ++ tail)).splitLast = some (dir, .ofPiece m)
  lead : ∀ {m tail : Bytes}, silent m = false → slash ∉ m → IsIdle tail →
    (Path.mk (before ++ m ++ tail)).lead = before
  join : ∀ {m : Bytes}, IsPiece m → (dir.join m).splitLast = some (dir, .name m)
  ends : before = [] ∨ before.getLast? = some slash
  /-- It adds nothing to the path of the directory but slashes and dots. -/
  bytes : ∀ b ∈ before, b ∈ dir.bytes ∨ b = slash ∨ b = dot

theorem front_nil : Front [] ⟨[]⟩ where
  splitLast := by
    rintro m _ hm hno ⟨ps, hs, rfl⟩
    have hne : m ≠ [] := fun he => by simp [silent, he] at hm
    simpa [glue] using (splitLast_glue_first hne hno hs).1
  lead := by
    rintro m _ hm hno ⟨ps, hs, rfl⟩
    have hne : m ≠ [] := fun he => by simp [silent, he] at hm
    simpa [glue] using (splitLast_glue_first hne hno hs).2
  join := by
    intro m hm
    have hone : (Path.mk (glue slash m [])).splitLast = some (⟨[]⟩, .ofPiece m) :=
      (splitLast_glue_first hm.ne_nil hm.no_slash (by simp)).1
    rw [join_of_empty hm.isRelative]
    simpa [glue, hm.component] using hone
  ends := .inl rfl
  bytes := by simp

theorem front_glue (hf : slash ∉ first) (ho : ∀ piece ∈ others, slash ∉ piece) :
    Front (glue slash first others ++ [slash]) (ofPieces first (dropTrailing silent others)) where
  splitLast := by
    rintro m _ hm hno ⟨ps, hs, rfl⟩
    simpa [glue] using (splitLast_glue hf ho hm hno hs).1
  lead := by
    rintro m _ hm hno ⟨ps, hs, rfl⟩
    simpa [glue] using (splitLast_glue hf ho hm hno hs).2
  join := by
    intro m hm
    obtain ⟨t, ht, -⟩ := exists_dropTrailing silent others
    refine splitLast_join_ofPieces hf (fun piece hp => ho piece ?_)
      (dropTrailing_dropTrailing _ _) hm
    rw [ht]
    exact List.mem_append_left _ hp
  ends := .inr (by simp)
  bytes := by
    obtain ⟨t, ht, hs⟩ := exists_dropTrailing silent others
    have hkept : ∀ b ∈ glue slash first (dropTrailing silent others),
        b ∈ (ofPieces first (dropTrailing silent others)).bytes := by
      intro b hb
      unfold ofPieces
      split
      · rename_i hboth
        simp [hboth.1, hboth.2, glue] at hb
      · exact hb
    intro b hb
    have hsplit : glue slash first others =
        glue slash first (dropTrailing silent others) ++ t.flatMap (slash :: ·) := by
      conv => lhs; rw [ht]
      simp [glue]
    rw [hsplit, List.append_assoc, List.mem_append, List.mem_append, List.mem_flatMap] at hb
    rcases hb with hb | ⟨piece, hp, hb⟩ | hb
    · exact .inl (hkept b hb)
    · rcases silent_eq_true_iff.1 (hs piece hp) with rfl | rfl
      · exact .inr (.inl (List.mem_singleton.1 hb))
      · exact .inr (by simpa using hb)
    · exact .inr (.inl (List.mem_singleton.1 hb))

theorem fileName?_eq_some_iff :
    p.fileName? = some n ↔ ∃ dir, p.splitLast = some (dir, .name n) := by
  unfold fileName?
  constructor
  · intro h
    split at h
    · rename_i dir m hs
      cases h
      exact ⟨dir, hs⟩
    · cases h
  · rintro ⟨dir, hs⟩
    rw [hs]

namespace Front

variable (h : Front lead dir)
include h

theorem fileName? (hm : IsPiece m) (ht : IsIdle tail) :
    (Path.mk (lead ++ m ++ tail)).fileName? = some m := by
  rw [fileName?_eq_some_iff]
  exact ⟨dir, by rw [h.splitLast hm.silent_eq hm.no_slash ht, hm.component]⟩

theorem parent? (hm : silent m = false) (hno : slash ∉ m) (ht : IsIdle tail) :
    (Path.mk (lead ++ m ++ tail)).parent? = some dir := by
  rw [Path.parent?, h.splitLast hm hno ht]
  rfl

theorem entry (hm : IsPiece m) :
    (Path.mk (lead ++ m)).parent? = some dir ∧ (Path.mk (lead ++ m)).fileName? = some m := by
  have hp := h.parent? hm.silent_eq hm.no_slash isIdle_nil
  have hn := h.fileName? hm isIdle_nil
  rw [List.append_nil] at hp hn
  exact ⟨hp, hn⟩

theorem join_lead (hx : IsRelative x) : (Path.mk lead).join x = ⟨lead ++ x⟩ := by
  rw [Path.join, hx.isAbsolute_eq, if_neg (by simp), if_pos h.ends]

theorem dir_of_nil (hl : lead = []) : dir = ⟨[]⟩ := by
  have ha : IsPiece [0x61] := by decide
  have hparent := (h.entry ha).1
  rw [hl] at hparent
  have hnil : (Path.mk ([] ++ [0x61])).parent? = some ⟨[]⟩ := by decide
  rw [hnil] at hparent
  exact (Option.some.inj hparent).symm

theorem parent?_of_join (hm : IsPiece m) : (dir.join m).parent? = some dir := by
  rw [Path.parent?, h.join hm]
  rfl

end Front

/-- A path with a file name is its front, the name, and nothing of meaning. -/
theorem exists_front (h : p.fileName? = some n) :
    ∃ dir tail, p.parent? = some dir ∧ Front p.lead dir ∧ IsIdle tail ∧
      p.bytes = p.lead ++ n ++ tail := by
  have hpiece := isPiece_of_fileName? h
  suffices hs : ∃ dir tail, Front p.lead dir ∧ IsIdle tail ∧ p.bytes = p.lead ++ n ++ tail by
    obtain ⟨dir, tail, hf, ht, hb⟩ := hs
    have hparent := hf.parent? hpiece.silent_eq hpiece.no_slash ht
    rw [← hb] at hparent
    exact ⟨dir, tail, hparent, hf, ht, hb⟩
  have hno := not_mem_pieces slash p.bytes
  have hwhole := glue_pieces slash p.bytes
  obtain ⟨t, ht, hs⟩ := exists_dropTrailing silent (pieces slash p.bytes).2
  have htail : p.tailPieces = dropTrailing silent (pieces slash p.bytes).2 := rfl
  rw [← htail] at ht
  obtain ⟨_, hsplit⟩ := fileName?_eq_some_iff.1 h
  unfold splitLast at hsplit
  cases hl : p.tailPieces.getLast? with
  | none =>
    have hnil := List.getLast?_eq_none_iff.1 hl
    have hlead : p.lead = [] := by simp [Path.lead, hnil]
    have hname : (pieces slash p.bytes).1 = n := by
      rw [hl] at hsplit
      by_cases hf : (pieces slash p.bytes).1 = []
      · simp [hf] at hsplit
      · simp only [hf, if_false, Option.some.injEq, Prod.mk.injEq] at hsplit
        exact (Component.ofPiece_eq_name_iff.1 hsplit.2).1
    refine ⟨⟨[]⟩, glue slash [] t, by rw [hlead]; exact front_nil, ⟨t, hs, rfl⟩, ?_⟩
    rw [hlead]
    conv => lhs; rw [← hwhole, ht, hnil, hname]
    simp [glue]
  | some last =>
    obtain ⟨init, hinit⟩ := List.getLast?_eq_some_iff.1 hl
    have hlead : p.lead = glue slash (pieces slash p.bytes).1 init ++ [slash] := by
      simp [Path.lead, hinit]
    have hname : last = n := by
      rw [hl] at hsplit
      simp only [Option.some.injEq, Prod.mk.injEq] at hsplit
      exact (Component.ofPiece_eq_name_iff.1 hsplit.2).1
    have hmem : ∀ piece ∈ init, slash ∉ piece := by
      intro piece hp
      refine hno.2 piece ?_
      rw [ht, hinit]
      simp [hp]
    refine ⟨_, glue slash [] t, by rw [hlead]; exact front_glue hno.1 hmem, ⟨t, hs, rfl⟩, ?_⟩
    rw [hlead]
    conv => lhs; rw [← hwhole, ht, hinit, hname]
    simp [glue]

/-! ## The same path -/

theorem components_of_splitLast (h : p.splitLast = some (dir, c)) :
    p.components = dir.components ++ [c] := by
  have hno := not_mem_pieces slash p.bytes
  have hfilter := filter_dropTrailing_silent (pieces slash p.bytes).2
  obtain ⟨t, ht, -⟩ := exists_dropTrailing silent (pieces slash p.bytes).2
  have htail : p.tailPieces = dropTrailing silent (pieces slash p.bytes).2 := rfl
  rw [← htail] at ht hfilter
  unfold splitLast at h
  cases hl : p.tailPieces.getLast? with
  | none =>
    rw [hl] at h
    rw [List.getLast?_eq_none_iff.1 hl] at hfilter
    by_cases hf : (pieces slash p.bytes).1 = []
    · simp [hf] at h
    · simp only [hf, if_false, Option.some.injEq, Prod.mk.injEq] at h
      obtain ⟨rfl, rfl⟩ := h
      simp [components, hf, ← hfilter, pieces]
  | some last =>
    obtain ⟨init, hinit⟩ := List.getLast?_eq_some_iff.1 hl
    have hlast := not_of_getLast?_dropTrailing hl
    have hmem : ∀ piece ∈ dropTrailing silent init, slash ∉ piece := by
      intro piece hp
      obtain ⟨t', ht', -⟩ := exists_dropTrailing silent init
      refine hno.2 piece ?_
      rw [ht, hinit, ht']
      simp [hp]
    have hothers : (pieces slash p.bytes).2 ≠ [] := by
      rw [ht, hinit]
      simp
    rw [hl, hinit, List.dropLast_concat] at h
    cases h
    rw [components_ofPieces hno.1 hmem, filter_dropTrailing_silent]
    simp only [components, ← hfilter, hinit, List.filter_append, hlast, Bool.not_false,
      List.filter_cons_of_pos, List.filter_nil, List.map_append, List.map_cons, List.map_nil]
    by_cases hf : (pieces slash p.bytes).1 = [] <;> simp [hf, hothers]

theorem splitLast_eq_some_of_fileName? (hn : p.fileName? = some n) (hd : p.parent? = some dir) :
    p.splitLast = some (dir, .name n) := by
  obtain ⟨dir', hs⟩ := fileName?_eq_some_iff.1 hn
  rw [Path.parent?, hs] at hd
  cases hd
  exact hs

theorem same_of_parent?_eq (hn : p.fileName? = some n) (hn' : q.fileName? = some n)
    (hd : p.parent? = q.parent?) : p.Same q := by
  obtain ⟨dir, hs⟩ := fileName?_eq_some_iff.1 hn
  have hp : p.parent? = some dir := by rw [Path.parent?, hs]; rfl
  have hs' := splitLast_eq_some_of_fileName? hn' (hd ▸ hp)
  rw [Same, components_of_splitLast hs, components_of_splitLast hs']

end Path

end ModuleInstall
