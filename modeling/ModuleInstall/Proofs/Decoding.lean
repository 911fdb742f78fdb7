import ModuleInstall.Proofs.Encoding

/-!
# Ill-formed parts

A character for the bytes of one, and U+FFFD for each maximal part of anything else (`decoded_iff`).
-/

namespace ModuleInstall.Utf8

/-! ## What is decoded -/

/-- The bytes are the beginning of a character, and not the whole of it. -/
def IsOpening (u : Bytes) : Prop :=
  u ≠ [] ∧ ∃ c more, more ≠ [] ∧ u ++ more = String.utf8EncodeChar c

/-- No character starts the bytes, and the part is as long as the beginning of a character can be
there, or one byte if there is none. -/
structure IllFormed (part bs : Bytes) : Prop where
  starts : part <+: bs
  no_char : ∀ c, ¬ String.utf8EncodeChar c <+: bs
  opens : IsOpening part ∨ part.length = 1
  maximal : ∀ u, u <+: bs → IsOpening u → u.length ≤ part.length

/-- The characters of a byte string, U+FFFD in place of each ill-formed part. -/
inductive Decoded : Bytes → List Char → Prop
  | nil : Decoded [] []
  | char {rest : Bytes} {cs : List Char} (c : Char) :
    Decoded rest cs → Decoded (String.utf8EncodeChar c ++ rest) (c :: cs)
  | part {part rest : Bytes} {cs : List Char} :
    IllFormed part (part ++ rest) → Decoded rest cs → Decoded (part ++ rest) ('\uFFFD' :: cs)

variable {b : UInt8} {u bs rest : Bytes} {p : Pending} {c : Char} {cs : List Char}
  {state : Option Pending}

theorem Decoded.mem_of_mem (h : Decoded bs cs) (hc : c ∈ cs) (hne : c ≠ '\uFFFD') :
    ∀ b ∈ String.utf8EncodeChar c, b ∈ bs := by
  induction h with
  | nil => simp at hc
  | char d _ ih =>
    intro b hb
    rcases List.mem_cons.1 hc with rfl | hc
    · exact List.mem_append_left _ hb
    · exact List.mem_append_right _ (ih hc b hb)
  | part _ _ ih =>
    intro b hb
    rcases List.mem_cons.1 hc with rfl | hc
    · exact absurd rfl hne
    · exact List.mem_append_right _ (ih hc b hb)

/-! ## Runs of the decoder -/

/-- What the decoder knows after some bytes. -/
def runFrom : Option Pending → Bytes → Progress
  | state, [] => ([], state)
  | state, b :: bs =>
    let (chars, state) := step state b
    let (more, state) := runFrom state bs
    (chars ++ more, state)

theorem runFrom_append (state : Option Pending) (u bs : Bytes) :
    runFrom state (u ++ bs) =
      ((runFrom state u).1 ++ (runFrom (runFrom state u).2 bs).1,
        (runFrom (runFrom state u).2 bs).2) := by
  induction u generalizing state with
  | nil => rfl
  | cons b u ih => simp [runFrom, ih]

theorem scanFrom_append (state : Option Pending) (u bs : Bytes) :
    scanFrom state (u ++ bs) = (runFrom state u).1 ++ scanFrom (runFrom state u).2 bs := by
  induction u generalizing state with
  | nil => rfl
  | cons b u ih => rw [List.cons_append, scanFrom_cons, ih, runFrom, List.append_assoc]

theorem step_ne_nil (h : (step state b).2 = none) : (step state b).1 ≠ [] := by
  have hstart : ∀ b, (start b).2 = none → (start b).1 ≠ [] := by
    intro b h
    unfold start at h ⊢
    dsimp only at h ⊢
    repeat' split
    all_goals simp_all
  cases state with
  | none => exact hstart b h
  | some p =>
    unfold step Pending.push at h ⊢
    dsimp only at h ⊢
    split
    · split <;> simp_all
    · simp

theorem runFrom_ne_nil (hne : bs ≠ []) (h : (runFrom state bs).2 = none) :
    (runFrom state bs).1 ≠ [] := by
  induction bs generalizing state with
  | nil => exact absurd rfl hne
  | cons b bs ih =>
    by_cases hbs : bs = []
    · subst hbs
      simpa [runFrom] using step_ne_nil h
    · exact List.append_ne_nil_of_right_ne_nil _ (ih hbs h)

theorem scanFrom_ne_nil (h : state ≠ none ∨ bs ≠ []) : scanFrom state bs ≠ [] := by
  by_cases hne : bs = []
  · subst hne
    obtain ⟨p, rfl⟩ := Option.ne_none_iff_exists'.1 (h.resolve_right (by simp))
    simp [scanFrom]
  · rw [← List.append_nil bs, scanFrom_append]
    cases hopen : (runFrom state bs).2 with
    | none => exact List.append_ne_nil_of_left_ne_nil (runFrom_ne_nil hne hopen) _
    | some p => simp [scanFrom]

/-! ## Open sequences -/

/-- The next byte can go on with the sequence, and is not one of ASCII then. -/
structure Pending.Sound (p : Pending) : Prop where
  low : 0x80 ≤ p.low
  bounds : p.low ≤ p.high

theorem sound_of_bounds (hlow : p.low = 0x80) (hhigh : p.high = 0xBF) : p.Sound where
  low := by rw [hlow]; decide
  bounds := by rw [hlow, hhigh]; decide

theorem sound_of_start (h : (start b).2 = some p) : p.Sound := by
  unfold start at h
  dsimp only at h
  repeat' split at h
  all_goals simp only [Option.some.injEq, reduceCtorEq] at h
  all_goals subst h
  all_goals exact ⟨by dsimp only; decide, by dsimp only; decide⟩

theorem sound_of_step (h : (step state b).2 = some p) : p.Sound := by
  cases state with
  | none => exact sound_of_start h
  | some q =>
    unfold step Pending.push at h
    dsimp only at h
    split at h
    · split at h
      · cases h
      · simp only [Option.some.injEq] at h
        subst h
        exact sound_of_bounds rfl rfl
    · exact sound_of_start h

theorem sound_of_runFrom (hs : ∀ q, state = some q → q.Sound)
    (h : (runFrom state bs).2 = some p) : p.Sound := by
  induction bs generalizing state with
  | nil => exact hs p h
  | cons b bs ih => exact ih (fun q hq => sound_of_step hq) h

theorem exists_completion (h : p.Sound) :
    ∃ c more, more ≠ [] ∧ scanFrom (some p) more = [some c] := by
  have hin : p.low ≤ p.low ∧ p.low ≤ p.high := ⟨UInt8.le_refl _, h.bounds⟩
  generalize howed : p.owed = n
  induction n using Nat.strongRecOn generalizing p with
  | ind n ih =>
    by_cases hlast : p.owed ≤ 1
    · refine ⟨Char.ofNat (p.bits * 0x40 + (p.low.toNat - 0x80)), [p.low], by simp, ?_⟩
      simp only [scanFrom_cons, step, if_pos hin, Pending.push, if_pos hlast]
      rfl
    · let q : Pending := { bits := p.bits * 0x40 + (p.low.toNat - 0x80), owed := p.owed - 1 }
      have hq : q.Sound := sound_of_bounds rfl rfl
      obtain ⟨c, more, -, hmore⟩ :=
        ih (p.owed - 1) (by omega) hq ⟨UInt8.le_refl _, hq.bounds⟩ rfl
      refine ⟨c, p.low :: more, by simp, ?_⟩
      simp only [scanFrom_cons, step, if_pos hin, Pending.push, if_neg hlast]
      exact hmore

theorem scan_char (c : Char) (rest : Bytes) :
    scan (String.utf8EncodeChar c ++ rest) = some c :: scan rest :=
  scanFrom_utf8EncodeChar c rest

theorem eq_char_of_scan (h : scan bs = [some c]) : bs = String.utf8EncodeChar c := by
  obtain ⟨text, rfl⟩ := exists_encode bs (by simp [isText, h])
  rw [scan_encode] at h
  obtain ⟨d, hd, hdc⟩ := List.map_eq_singleton_iff.1 h
  cases hdc
  simp [encode, hd]

theorem eq_char_of_runFrom (h : runFrom none u = ([some c], none)) :
    u = String.utf8EncodeChar c := by
  refine eq_char_of_scan ?_
  rw [scan, ← List.append_nil u, scanFrom_append, h]
  rfl

theorem isOpening_iff : IsOpening u ↔ ∃ p, runFrom none u = ([], some p) := by
  constructor
  · rintro ⟨hne, c, more, hmore, hc⟩
    have hscan : scan (u ++ more) = [some c] := by
      rw [hc, ← List.append_nil (String.utf8EncodeChar c), scan_char]
      rfl
    rw [scan, scanFrom_append] at hscan
    -- Nothing is known yet, since the decoder still makes something of what is missing.
    have hnil : (runFrom none u).1 = [] := by
      rcases List.append_eq_singleton_iff.1 hscan with ⟨h, -⟩ | ⟨-, h⟩
      · exact h
      · exact absurd h (scanFrom_ne_nil (.inr hmore))
    obtain ⟨p, hp⟩ := Option.ne_none_iff_exists'.1 fun hnone => runFrom_ne_nil hne hnone hnil
    exact ⟨p, Prod.ext hnil hp⟩
  · rintro ⟨p, hp⟩
    have hsound : p.Sound := sound_of_runFrom (by simp) (congrArg Prod.snd hp)
    obtain ⟨c, more, hmore, hscan⟩ := exists_completion hsound
    refine ⟨?_, c, more, hmore, eq_char_of_scan ?_⟩
    · rintro rfl
      cases hp
    · rw [scan, scanFrom_append, hp]
      exact hscan

/-! ## Ill-formed parts -/

/-- The decoder takes the part at the front of the bytes for ill-formed. -/
structure Rejects (part rest : Bytes) : Prop where
  scan : scan (part ++ rest) = none :: scan rest
  illFormed : IllFormed part (part ++ rest)

theorem no_char_of_scan {chars : List (Option Char)} (h : scan bs = none :: chars) (c : Char) :
    ¬ String.utf8EncodeChar c <+: bs := by
  rintro ⟨rest, rfl⟩
  rw [scan_char] at h
  cases h

theorem rejects_of_open (hu : runFrom none u = ([], some p))
    (hstop : ∀ b ∈ rest.head?, ¬ (p.low ≤ b ∧ b ≤ p.high)) : Rejects u rest := by
  have hscan : scan (u ++ rest) = none :: scan rest := by
    rw [scan, scanFrom_append, hu]
    cases rest with
    | nil => rfl
    | cons b rest => simp only [scan, scanFrom_cons, step, if_neg (hstop b rfl), List.nil_append,
        List.cons_append]
  refine ⟨hscan, List.prefix_append _ _, no_char_of_scan hscan, .inl (isOpening_iff.2 ⟨p, hu⟩), ?_⟩
  intro v hv hopen
  refine Nat.le_of_not_lt fun hlt => ?_
  obtain ⟨more, rfl⟩ := List.prefix_of_prefix_length_le (List.prefix_append u rest) hv (Nat.le_of_lt hlt)
  cases more with
  | nil => simp at hlt
  | cons b more =>
    obtain ⟨tail, htail⟩ := hv
    rw [List.append_assoc, List.append_cancel_left_eq] at htail
    obtain ⟨q, hq⟩ := isOpening_iff.1 hopen
    rw [runFrom_append, hu] at hq
    simp [runFrom, step, hstop b (by simp [← htail])] at hq

theorem rejects_of_start (h : start b = ([none], none)) (rest : Bytes) : Rejects [b] rest := by
  have hscan : scan ([b] ++ rest) = none :: scan rest := by
    rw [List.singleton_append, scan, scanFrom_cons, step, h]
    rfl
  refine ⟨hscan, List.prefix_append _ _, no_char_of_scan hscan, .inr rfl, fun v hv hopen => ?_⟩
  obtain ⟨q, hq⟩ := isOpening_iff.1 hopen
  cases v with
  | nil => exact absurd rfl hopen.1
  | cons a v =>
    obtain rfl : a = b := (List.cons_prefix_cons.1 hv).1
    simp [runFrom, step, h] at hq

theorem unit_of_open (hu : runFrom none u = ([], some p)) (bs : Bytes) :
    (∃ c, String.utf8EncodeChar c <+: u ++ bs) ∨
      ∃ part rest, u ++ bs = part ++ rest ∧ Rejects part rest := by
  induction bs generalizing u p with
  | nil => exact .inr ⟨u, [], rfl, rejects_of_open hu (by simp)⟩
  | cons b bs ih =>
    by_cases hin : p.low ≤ b ∧ b ≤ p.high
    · have hpush : runFrom none (u ++ [b]) = p.push b := by
        simp [runFrom_append, hu, runFrom, step, hin]
      rw [List.append_cons]
      unfold Pending.push at hpush
      dsimp only at hpush
      split at hpush
      · exact .inl ⟨_, by rw [← eq_char_of_runFrom hpush]; exact List.prefix_append _ _⟩
      · exact ih hpush
    · exact .inr ⟨u, b :: bs, rfl, rejects_of_open hu (by simpa using hin)⟩

theorem exists_unit (hne : bs ≠ []) :
    (∃ c, String.utf8EncodeChar c <+: bs) ∨
      ∃ part rest, bs = part ++ rest ∧ Rejects part rest := by
  obtain ⟨b, bs, rfl⟩ := List.exists_cons_of_ne_nil hne
  have hrun : runFrom none [b] = start b := by simp [runFrom, step]
  rcases start_cases b with ⟨k, hk, rfl⟩ | ⟨k, hk, hk2, rfl⟩ | ⟨k, hk, rfl⟩ | ⟨k, hk, rfl⟩ | hb
  · rw [start_one hk] at hrun
    exact .inl ⟨_, by rw [← eq_char_of_runFrom hrun]; exact ⟨bs, rfl⟩⟩
  · exact unit_of_open (hrun.trans (start_two hk hk2)) bs
  · exact unit_of_open (hrun.trans (start_three hk)) bs
  · exact unit_of_open (hrun.trans (start_four hk)) bs
  · exact .inr ⟨[b], bs, rfl, rejects_of_start hb bs⟩

theorem IllFormed.length_pos {part : Bytes} (h : IllFormed part bs) : 0 < part.length := by
  rcases h.opens with ⟨hne, -⟩ | hone
  · exact List.length_pos_iff.2 hne
  · omega

theorem IllFormed.length_le {part part' : Bytes} (h : IllFormed part bs)
    (h' : IllFormed part' bs) : part.length ≤ part'.length := by
  rcases h.opens with hopen | hone
  · exact h'.maximal part h.starts hopen
  · have := h'.length_pos
    omega

theorem IllFormed.rejects {part : Bytes} (h : IllFormed part (part ++ rest)) :
    Rejects part rest := by
  rcases exists_unit (List.length_pos_iff.1 (Nat.lt_of_lt_of_le h.length_pos h.starts.length_le))
    with ⟨c, hc⟩ | ⟨part', rest', heq, hr⟩
  · exact absurd hc (h.no_char c)
  · have h' := hr.illFormed
    rw [← heq] at h'
    obtain ⟨rfl, rfl⟩ := List.append_inj heq (Nat.le_antisymm (h.length_le h') (h'.length_le h))
    exact hr

theorem decode_char (c : Char) (rest : Bytes) :
    decode (String.utf8EncodeChar c ++ rest) = c :: decode rest := by
  rw [decode, scan_char]
  rfl

theorem Rejects.decode {part : Bytes} (h : Rejects part rest) :
    decode (part ++ rest) = '\uFFFD' :: decode rest := by
  rw [Utf8.decode, h.scan]
  rfl

theorem decoded_decode (bs : Bytes) : Decoded bs (decode bs) := by
  induction hlen : bs.length using Nat.strongRecOn generalizing bs with
  | ind n ih =>
    by_cases hne : bs = []
    · subst hne
      exact .nil
    rcases exists_unit hne with ⟨c, rest, rfl⟩ | ⟨part, rest, rfl, hr⟩
    · have hpos := List.length_pos_iff.2 (String.utf8EncodeChar_ne_nil (c := c))
      rw [List.length_append] at hlen
      rw [decode_char]
      exact .char c (ih rest.length (by omega) rest rfl)
    · have hpos := hr.illFormed.length_pos
      rw [List.length_append] at hlen
      rw [hr.decode]
      exact .part hr.illFormed (ih rest.length (by omega) rest rfl)

/-- The decoder reads characters where there are some, and puts U+FFFD for each maximal part of
anything else. -/
theorem decoded_iff : Decoded bs cs ↔ decode bs = cs := by
  constructor
  · intro h
    induction h with
    | nil => rfl
    | char c _ ih => rw [decode_char, ih]
    | part hpart _ ih => rw [hpart.rejects.decode, ih]
  · rintro rfl
    exact decoded_decode bs

/-! ## Cuts -/

theorem start_ascii (hb : b < 0x80) : start b = ([some (Char.ofNat b.toNat)], none) := by
  have hlt : b.toNat < 0x80 := UInt8.lt_iff_toNat_lt.1 hb
  rw [← start_one hlt, UInt8.ofNat_toNat]

theorem scanFrom_append_ascii (hs : ∀ p, state = some p → p.Sound) (hb : b < 0x80)
    (rest : Bytes) :
    scanFrom state (bs ++ b :: rest) =
      scanFrom state bs ++ some (Char.ofNat b.toNat) :: scanFrom none rest := by
  rw [scanFrom_append, ← List.append_nil bs, scanFrom_append, List.append_nil,
    List.append_assoc, scanFrom_cons]
  congr 1
  cases hopen : (runFrom state bs).2 with
  | none =>
    rw [step, start_ascii hb]
    rfl
  | some p =>
    have hlow := (sound_of_runFrom hs hopen).low
    have hout : ¬ (p.low ≤ b ∧ b ≤ p.high) := fun h =>
      UInt8.not_le.2 hb (UInt8.le_trans hlow h.1)
    simp [step, hout, start_ascii hb, scanFrom]

theorem decode_append_ascii (bs : Bytes) (hb : b < 0x80) (rest : Bytes) :
    decode (bs ++ b :: rest) = decode bs ++ Char.ofNat b.toNat :: decode rest := by
  rw [decode, scan, scanFrom_append_ascii (by simp) hb]
  simp [decode, scan]

theorem decode_eq_nil_iff : decode bs = [] ↔ bs = [] := by
  rw [decode, List.map_eq_nil_iff]
  exact ⟨fun h => Decidable.byContradiction fun hne => scanFrom_ne_nil (.inr hne) h,
    fun h => h ▸ rfl⟩

end ModuleInstall.Utf8
