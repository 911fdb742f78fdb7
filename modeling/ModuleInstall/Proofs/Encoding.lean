import ModuleInstall.Text.Utf8

/-! # Texts and their bytes -/

namespace ModuleInstall.Utf8

variable {b : UInt8} {bs rest : Bytes} {p : Pending} {k m v : Nat}

/-! ## Bytes of a sequence -/

theorem scanFrom_cons (state : Option Pending) (b : UInt8) (rest : Bytes) :
    scanFrom state (b :: rest) = (step state b).1 ++ scanFrom (step state b).2 rest := by
  cases state <;> rfl

theorem toNat_ofNat (h : v < 0x100) : (UInt8.ofNat v).toNat = v := by
  rw [UInt8.toNat_ofNat']
  omega

theorem start_one (h : k < 0x80) : start (UInt8.ofNat k) = ([some (Char.ofNat k)], none) := by
  unfold start
  rw [toNat_ofNat (by omega)]
  simp only [show k ≤ 0x7F by omega, if_true]

theorem start_two (h : k < 0x20) (hlow : 2 ≤ k) :
    start (UInt8.ofNat (k + 0xC0)) = ([], some { bits := k, owed := 1 }) := by
  unfold start
  rw [toNat_ofNat (by omega)]
  simp only [show ¬ k + 0xC0 ≤ 0x7F by omega, show 0xC2 ≤ k + 0xC0 ∧ k + 0xC0 ≤ 0xDF by omega,
    and_self, if_true, if_false, Nat.add_sub_cancel]

/-- What a lead leaves open that starts a sequence of three bytes. -/
def openThree (k : Nat) : Pending where
  bits := k
  owed := 2
  low := if k = 0 then 0xA0 else 0x80
  high := if k = 0xD then 0x9F else 0xBF

theorem start_three (h : k < 0x10) : start (UInt8.ofNat (k + 0xE0)) = ([], some (openThree k)) := by
  unfold start openThree
  rw [toNat_ofNat (by omega)]
  simp only [show ¬ k + 0xE0 ≤ 0x7F by omega, show ¬ (0xC2 ≤ k + 0xE0 ∧ k + 0xE0 ≤ 0xDF) by omega,
    if_false]
  by_cases h0 : k = 0
  · simp [h0]
  by_cases hd : k = 0xD
  · simp [hd]
  · rw [if_neg (by omega), if_neg (by omega), if_pos (by omega), if_neg h0, if_neg hd,
      Nat.add_sub_cancel]

theorem bounds_openThree (k : Nat) :
    0x80 ≤ (openThree k).low.toNat ∧ (openThree k).high.toNat ≤ 0xBF := by
  unfold openThree
  dsimp only
  constructor <;> split <;> decide

theorem within_openThree (hm : m < 0x40) :
    (openThree k).low.toNat ≤ m + 0x80 ∧ m + 0x80 ≤ (openThree k).high.toNat ↔
      0x20 ≤ k * 0x40 + m ∧ (k * 0x40 + m < 0x360 ∨ 0x380 ≤ k * 0x40 + m) := by
  unfold openThree
  by_cases h0 : k = 0
  · simp [h0]
    omega
  by_cases hd : k = 0xD
  · simp [hd]
    omega
  · simp [h0, hd]
    omega

/-- What a lead leaves open that starts a sequence of four bytes. -/
def openFour (k : Nat) : Pending where
  bits := k
  owed := 3
  low := if k = 0 then 0x90 else 0x80
  high := if k = 4 then 0x8F else 0xBF

theorem start_four (h : k < 5) : start (UInt8.ofNat (k + 0xF0)) = ([], some (openFour k)) := by
  obtain rfl | rfl | rfl | rfl | rfl : k = 0 ∨ k = 1 ∨ k = 2 ∨ k = 3 ∨ k = 4 := by omega
  all_goals rfl

theorem bounds_openFour (k : Nat) :
    0x80 ≤ (openFour k).low.toNat ∧ (openFour k).high.toNat ≤ 0xBF := by
  unfold openFour
  dsimp only
  constructor <;> split <;> decide

theorem within_openFour (hk : k < 5) (hm : m < 0x40) :
    (openFour k).low.toNat ≤ m + 0x80 ∧ m + 0x80 ≤ (openFour k).high.toNat ↔
      0x10 ≤ k * 0x40 + m ∧ k * 0x40 + m < 0x110 := by
  unfold openFour
  by_cases h0 : k = 0
  · simp [h0]
    omega
  by_cases h4 : k = 4
  · simp [h4]
    omega
  · simp [h0, h4]
    omega

theorem step_within (hl : p.low.toNat ≤ k + 0x80) (hh : k + 0x80 ≤ p.high.toNat) (hk : k < 0x40) :
    step (some p) (UInt8.ofNat (k + 0x80)) =
      if p.owed ≤ 1 then ([some (Char.ofNat (p.bits * 0x40 + k))], none)
      else ([], some { bits := p.bits * 0x40 + k, owed := p.owed - 1 }) := by
  have hb := toNat_ofNat (v := k + 0x80) (by omega)
  have hin : p.low ≤ UInt8.ofNat (k + 0x80) ∧ UInt8.ofNat (k + 0x80) ≤ p.high := by
    rw [UInt8.le_iff_toNat_le, UInt8.le_iff_toNat_le, hb]
    exact ⟨hl, hh⟩
  simp only [step, hin, and_self, if_true, Pending.push, hb, Nat.add_sub_cancel]

/-! ## From a text to its bytes and back -/

theorem isValid (c : Char) :
    c.val.toNat < 0xD800 ∨ 0xDFFF < c.val.toNat ∧ c.val.toNat < 0x110000 := c.valid

theorem scanFrom_utf8EncodeChar (c : Char) (rest : Bytes) :
    scanFrom none (String.utf8EncodeChar c ++ rest) = some c :: scanFrom none rest := by
  have hv := isValid c
  have hc : Char.ofNat c.val.toNat = c := Char.ofNat_toNat c
  unfold String.utf8EncodeChar
  generalize c.val.toNat = v at hv hc
  subst hc
  dsimp only
  split
  · rw [List.singleton_append, scanFrom_cons, step, start_one (by omega)]
    rfl
  split
  · simp only [List.cons_append, List.nil_append, scanFrom_cons]
    rw [step, start_two (by omega) (by omega)]
    dsimp only
    rw [step_within (by simp) (by simp; omega) (by omega), if_pos (by simp)]
    have hbits : v / 64 % 32 * 0x40 + v % 64 = v := by omega
    simp [hbits]
  split
  · simp only [List.cons_append, List.nil_append, scanFrom_cons]
    obtain ⟨hlow, hhigh⟩ := (within_openThree (k := v / 4096 % 16) (m := v / 64 % 64) (by omega)).2
      (by omega)
    rw [step, start_three (by omega)]
    dsimp only
    rw [step_within hlow hhigh (by omega), if_neg (by simp [openThree])]
    dsimp only
    rw [step_within (by simp) (by simp; omega) (by omega), if_pos (by simp [openThree])]
    have hbits : (v / 4096 % 16 * 0x40 + v / 64 % 64) * 0x40 + v % 64 = v := by omega
    simp [openThree, hbits]
  · simp only [List.cons_append, List.nil_append, scanFrom_cons]
    obtain ⟨hlow, hhigh⟩ :=
      (within_openFour (k := v / 262144 % 8) (m := v / 4096 % 64) (by omega) (by omega)).2 (by omega)
    rw [step, start_four (by omega)]
    dsimp only
    rw [step_within hlow hhigh (by omega), if_neg (by simp [openFour])]
    dsimp only
    rw [step_within (by simp) (by simp; omega) (by omega), if_neg (by simp [openFour])]
    dsimp only
    rw [step_within (by simp) (by simp; omega) (by omega), if_pos (by simp [openFour])]
    have hbits :
        ((v / 262144 % 8 * 0x40 + v / 4096 % 64) * 0x40 + v / 64 % 64) * 0x40 + v % 64 = v := by
      omega
    simp [openFour, hbits]

theorem scan_encode (text : String) : scan (encode text) = text.toList.map some := by
  unfold scan encode
  induction text.toList with
  | nil => rfl
  | cons c cs ih => rw [List.flatMap_cons, scanFrom_utf8EncodeChar, ih, List.map_cons]

theorem toText_encode (text : String) : toText (encode text) = text := by
  have hsome : (Option.getD · '\uFFFD') ∘ some = id := rfl
  rw [toText, decode, scan_encode, List.map_map, hsome, List.map_id, String.ofList_toList]

theorem isText_encode (text : String) : isText (encode text) = true := by
  simp [isText, scan_encode]

theorem encode_injective : Function.Injective encode := by
  intro text text' h
  rw [← toText_encode text, h, toText_encode]

/-! ## From bytes to a text and back -/

theorem start_cases (b : UInt8) :
    (∃ k, k < 0x80 ∧ b = UInt8.ofNat k) ∨ (∃ k, k < 0x20 ∧ 2 ≤ k ∧ b = UInt8.ofNat (k + 0xC0)) ∨
      (∃ k, k < 0x10 ∧ b = UInt8.ofNat (k + 0xE0)) ∨ (∃ k, k < 5 ∧ b = UInt8.ofNat (k + 0xF0)) ∨
      start b = ([none], none) := by
  have hb : ∀ base, base ≤ b.toNat → b = UInt8.ofNat (b.toNat - base + base) := by
    intro base hle
    rw [Nat.sub_add_cancel hle, UInt8.ofNat_toNat]
  by_cases h₁ : b.toNat < 0x80
  · exact Or.inl ⟨b.toNat, h₁, UInt8.ofNat_toNat.symm⟩
  by_cases h₂ : 0xC2 ≤ b.toNat ∧ b.toNat < 0xE0
  · exact Or.inr (Or.inl ⟨b.toNat - 0xC0, by omega, by omega, hb _ (by omega)⟩)
  by_cases h₃ : 0xE0 ≤ b.toNat ∧ b.toNat < 0xF0
  · exact Or.inr (Or.inr (Or.inl ⟨b.toNat - 0xE0, by omega, hb _ (by omega)⟩))
  by_cases h₄ : 0xF0 ≤ b.toNat ∧ b.toNat < 0xF5
  · exact Or.inr (Or.inr (Or.inr (Or.inl ⟨b.toNat - 0xF0, by omega, hb _ (by omega)⟩)))
  · refine Or.inr (Or.inr (Or.inr (Or.inr ?_)))
    unfold start
    dsimp only
    rw [if_neg (by omega), if_neg (by omega), if_neg (by omega), if_neg (by omega),
      if_neg (by omega), if_neg (by omega), if_neg (by omega), if_neg (by omega)]

theorem exists_of_pending (hlow : 0x80 ≤ p.low.toNat) (hhigh : p.high.toNat ≤ 0xBF)
    (h : (scanFrom (some p) bs).all Option.isSome = true) :
    ∃ k rest, bs = UInt8.ofNat (k + 0x80) :: rest ∧ k < 0x40 ∧
      (p.low.toNat ≤ k + 0x80 ∧ k + 0x80 ≤ p.high.toNat) ∧
      if p.owed ≤ 1 then (scanFrom none rest).all Option.isSome = true
      else (scanFrom (some { bits := p.bits * 0x40 + k, owed := p.owed - 1 }) rest).all
        Option.isSome = true := by
  cases bs with
  | nil => simp [scanFrom] at h
  | cons b rest =>
    rw [scanFrom_cons] at h
    by_cases hb : p.low ≤ b ∧ b ≤ p.high
    · rw [UInt8.le_iff_toNat_le, UInt8.le_iff_toNat_le] at hb
      have heq : b = UInt8.ofNat (b.toNat - 0x80 + 0x80) := by
        rw [Nat.sub_add_cancel (by omega), UInt8.ofNat_toNat]
      rw [heq, step_within (by omega) (by omega) (by omega)] at h
      refine ⟨b.toNat - 0x80, rest, by rw [← heq], by omega, by omega, ?_⟩
      split at h <;> rename_i howed
      · rw [if_pos howed]
        simpa using h
      · rw [if_neg howed]
        simpa using h
    · simp [step, hb] at h

theorem utf8EncodeChar_ofNat (h : v.isValidChar) :
    String.utf8EncodeChar (Char.ofNat v) =
      if v ≤ 0x7F then [UInt8.ofNat v]
      else if v ≤ 0x7FF then [UInt8.ofNat (v / 64 % 32 + 0xC0), UInt8.ofNat (v % 64 + 0x80)]
      else if v ≤ 0xFFFF then
        [UInt8.ofNat (v / 4096 % 16 + 0xE0), UInt8.ofNat (v / 64 % 64 + 0x80),
          UInt8.ofNat (v % 64 + 0x80)]
      else
        [UInt8.ofNat (v / 262144 % 8 + 0xF0), UInt8.ofNat (v / 4096 % 64 + 0x80),
          UInt8.ofNat (v / 64 % 64 + 0x80), UInt8.ofNat (v % 64 + 0x80)] := by
  have hv : (Char.ofNat v).val.toNat = v := by
    unfold Char.ofNat
    rw [dif_pos h]
    rfl
  unfold String.utf8EncodeChar
  rw [hv]

theorem exists_char (h : isText (b :: bs) = true) :
    ∃ c rest, b :: bs = String.utf8EncodeChar c ++ rest ∧ isText rest = true := by
  unfold isText scan at h ⊢
  rw [scanFrom_cons, step] at h
  rcases start_cases b with ⟨k, hk, rfl⟩ | ⟨k, hk, hk2, rfl⟩ | ⟨k, hk, rfl⟩ | ⟨k, hk, rfl⟩ | hb
  · rw [start_one hk] at h
    refine ⟨Char.ofNat k, bs, ?_, by simpa using h⟩
    rw [utf8EncodeChar_ofNat (Or.inl (by omega)), if_pos (by omega), List.singleton_append]
  · rw [start_two hk hk2] at h
    obtain ⟨m, rest, rfl, hm, -, h⟩ := exists_of_pending (by simp) (by simp) h
    refine ⟨Char.ofNat (k * 64 + m), rest, ?_, by simpa using h⟩
    rw [utf8EncodeChar_ofNat (Or.inl (by omega)), if_neg (by omega), if_pos (by omega),
      show (k * 64 + m) / 64 % 32 = k by omega, show (k * 64 + m) % 64 = m by omega]
    rfl
  · rw [start_three hk] at h
    obtain ⟨hlow, hhigh⟩ := bounds_openThree k
    obtain ⟨m, bs, rfl, hm, hin, h⟩ := exists_of_pending hlow hhigh h
    rw [within_openThree hm] at hin
    obtain ⟨l, rest, rfl, hl, -, h⟩ := exists_of_pending (by simp) (by simp) h
    refine ⟨Char.ofNat ((k * 64 + m) * 64 + l), rest, ?_, by simpa [openThree] using h⟩
    have hvalid : ((k * 64 + m) * 64 + l).isValidChar := by
      rw [Nat.isValidChar]
      omega
    rw [utf8EncodeChar_ofNat hvalid, if_neg (by omega), if_neg (by omega), if_pos (by omega),
      show ((k * 64 + m) * 64 + l) / 4096 % 16 = k by omega,
      show ((k * 64 + m) * 64 + l) / 64 % 64 = m by omega,
      show ((k * 64 + m) * 64 + l) % 64 = l by omega]
    rfl
  · rw [start_four hk] at h
    obtain ⟨hlow, hhigh⟩ := bounds_openFour k
    obtain ⟨m, bs, rfl, hm, hin, h⟩ := exists_of_pending hlow hhigh h
    rw [within_openFour hk hm] at hin
    obtain ⟨l, bs, rfl, hl, -, h⟩ := exists_of_pending (by simp) (by simp) h
    obtain ⟨j, rest, rfl, hj, -, h⟩ := exists_of_pending (by simp) (by simp) h
    refine ⟨Char.ofNat (((k * 64 + m) * 64 + l) * 64 + j), rest, ?_, by simpa [openFour] using h⟩
    have hvalid : (((k * 64 + m) * 64 + l) * 64 + j).isValidChar := by
      rw [Nat.isValidChar]
      omega
    rw [utf8EncodeChar_ofNat hvalid, if_neg (by omega), if_neg (by omega), if_neg (by omega),
      show (((k * 64 + m) * 64 + l) * 64 + j) / 262144 % 8 = k by omega,
      show (((k * 64 + m) * 64 + l) * 64 + j) / 4096 % 64 = m by omega,
      show (((k * 64 + m) * 64 + l) * 64 + j) / 64 % 64 = l by omega,
      show (((k * 64 + m) * 64 + l) * 64 + j) % 64 = j by omega]
    rfl
  · rw [hb] at h
    simp at h

theorem exists_encode (bs : Bytes) (h : isText bs = true) : ∃ text, bs = encode text := by
  induction hlen : bs.length using Nat.strongRecOn generalizing bs with
  | ind len ih =>
    cases bs with
    | nil => exact ⟨"", rfl⟩
    | cons b bs =>
      obtain ⟨c, rest, heq, hrest⟩ := exists_char h
      have hshort : rest.length < len := by
        have hpos := List.length_pos_iff.2 (String.utf8EncodeChar_ne_nil (c := c))
        rw [← hlen, heq, List.length_append]
        omega
      obtain ⟨text, rfl⟩ := ih _ hshort rest hrest rfl
      refine ⟨String.ofList (c :: text.toList), ?_⟩
      rw [heq, encode, encode, String.toList_ofList, List.flatMap_cons]

theorem encode_toText (h : isText bs = true) : encode (toText bs) = bs := by
  obtain ⟨text, rfl⟩ := exists_encode bs h
  rw [toText_encode]

end ModuleInstall.Utf8
