import ModuleInstall.Command.Basic
import ModuleInstall.Proofs.Encoding
import ModuleInstall.Proofs.Paths

/-! # Settings on a command line -/

namespace ModuleInstall.Options

/-! ## What is written -/

/-- A setting as it is given on a command line. -/
structure Given where
  key : Key
  isSetting : key ∈ settingKeys
  value : Bytes
  /-- The value stands behind an equals sign, and not in an argument of its own. -/
  attached : Bool

/-- The name that a setting is given by, without the dashes. -/
def nameOf : Key → Bytes
  | .home => Utf8.encode "home"
  | .compiler => Utf8.encode "compiler"
  | .release => Utf8.encode "release"
  | .classpath => Utf8.encode "classpath"
  | _ => []

namespace Given

def words (x : Given) : List Bytes :=
  if x.attached then [0x2D :: 0x2D :: (nameOf x.key ++ 0x3D :: x.value)]
  else [0x2D :: 0x2D :: nameOf x.key, x.value]

/-- The value is not taken for something else: it is attached, or does not start with a dash, or is
nothing but a dash. -/
def Legible (x : Given) : Prop :=
  x.attached = true ∨ x.value.head? ≠ some 0x2D ∨ x.value = [0x2D]

instance (x : Given) : Decidable x.Legible :=
  inferInstanceAs (Decidable (x.attached = true ∨ x.value.head? ≠ some 0x2D ∨ x.value = [0x2D]))

theorem eq_of_not_legible {x : Given} (h : ¬x.Legible) :
    ∃ body, body ≠ [] ∧ x.value = 0x2D :: body := by
  simp only [Legible, not_or, Decidable.not_not] at h
  obtain ⟨-, hhead, hdash⟩ := h
  obtain ⟨body, hbody⟩ := List.head?_eq_some_iff.1 hhead
  exact ⟨body, fun hnil => hdash (by rw [hbody, hnil]), hbody⟩

/-- The setting in its other form. -/
def switched (x : Given) : Given := { x with attached := !x.attached }

def choice (x : Given) : Key × Bytes := (x.key, x.value)

theorem map_fst_choice (l : List Given) : (l.map choice).map Prod.fst = l.map key := by
  rw [List.map_map]
  rfl

end Given

/-- The arguments that give some settings. -/
def spell (given : List Given) : List Bytes := given.flatMap Given.words

variable {g : Grammar} {key : Key} {value : Bytes} {r r' : Reading} {x : Given} {l : List Given}

/-- The command takes every setting. -/
def TakesSettings (g : Grammar) : Prop := ∀ key ∈ settingKeys, key ∈ g.named

theorem mem_settingKeys_iff :
    key ∈ settingKeys ↔ key = .home ∨ key = .compiler ∨ key = .release ∨ key = .classpath := by
  simp [settingKeys]

theorem eq_of_long? {key' : Key} (hk : key ∈ settingKeys) (h : key'.long? = key.long?) :
    key' = key := by
  obtain rfl | rfl | rfl | rfl := mem_settingKeys_iff.1 hk <;> revert h <;> cases key' <;> decide

theorem nameOf_ne_nil (hk : key ∈ settingKeys) : nameOf key ≠ [] := by
  obtain rfl | rfl | rfl | rfl := mem_settingKeys_iff.1 hk <;> decide

theorem not_mem_nameOf (hk : key ∈ settingKeys) : (0x3D : UInt8) ∉ nameOf key := by
  obtain rfl | rfl | rfl | rfl := mem_settingKeys_iff.1 hk <;> decide

theorem long?_setting (hk : key ∈ settingKeys) :
    key.long?.map Utf8.encode = some (nameOf key) := by
  obtain rfl | rfl | rfl | rfl := mem_settingKeys_iff.1 hk <;> rfl

theorem byLong?_nameOf (hg : TakesSettings g) (hk : key ∈ settingKeys) :
    g.byLong? (nameOf key) = some key := by
  have hlong := long?_setting hk
  unfold Grammar.byLong?
  cases hf : g.named.find? fun key' => key'.long?.map Utf8.encode == some (nameOf key) with
  | none => exact absurd (List.find?_eq_none.1 hf key (hg key hk)) (by simp [hlong])
  | some key' =>
    have hsame : key'.long?.map Utf8.encode = key.long?.map Utf8.encode := by
      rw [hlong]
      simpa using List.find?_some hf
    rw [eq_of_long? hk (Option.map_inj_right (fun _ _ h => Utf8.encode_injective h) |>.1 hsame)]

namespace Reading

/-! ## Values -/

theorem toOption_mapError {ε δ α : Type} (f : ε → δ) (e : Except ε α) :
    (e.mapError f).toOption = e.toOption := by
  cases e <;> rfl

theorem toOption_ok {ε α : Type} (a : α) : (Except.ok a : Except ε α).toOption = some a := rfl

theorem toOption_eq_some_iff {ε α : Type} {e : Except ε α} {a : α} :
    e.toOption = some a ↔ e = .ok a := by
  cases e <;> simp [Except.toOption]

theorem accept_eq_ok_iff :
    r.accept key value = .ok r' ↔
      r.choices.lookup key = none ∧ check key value = .ok () ∧
        r' = { r with choices := r.choices ++ [(key, value)] } := by
  unfold accept
  cases r.choices.lookup key with
  | some _ => simp
  | none =>
    cases hc : check key value with
    | error fault => simp [Except.map]
    | ok _ => simp [Except.map, eq_comm]

theorem meet_setting (hk : key ∈ settingKeys) (r : Reading) (attached : Option Bytes) :
    r.meet key attached =
      match r.settle with
      | .error fault => .error (.fault fault)
      | .ok r =>
        match attached with
        | some value => (r.accept key value).mapError .fault
        | none => .ok { r with pending := some (key, none) } := by
  unfold meet
  obtain rfl | rfl | rfl | rfl := mem_settingKeys_iff.1 hk <;> cases attached <;>
    cases r.settle <;> rfl

theorem settle_pending (h : r.settle = .ok r') :
    r'.pending = none ∧ r'.plainOnly = r.plainOnly := by
  unfold settle at h
  split at h
  · rename_i hnone
    cases h
    exact ⟨hnone, rfl⟩
  · cases h
  · obtain ⟨-, -, rfl⟩ := accept_eq_ok_iff.1 h
    exact ⟨rfl, rfl⟩

theorem settle_of_none (h : r.pending = none) : r.settle = .ok r := by
  unfold settle
  rw [h]

/-! ## A setting that waits for its value -/

theorem takeAll_cons (g : Grammar) (r : Reading) (arg : Bytes) (args : List Bytes) :
    (r.takeAll g (arg :: args)).toOption =
      (r.take g arg).toOption.bind fun r => (r.takeAll g args).toOption := by
  rw [takeAll]
  cases r.take g arg <;> rfl

section Waiting

variable {k : Key} (hw : r.pending = some (k, none))
include hw

theorem settle_waiting : r.settle = .error (.valueMissing k) := by
  unfold settle
  rw [hw]

theorem meet_waiting (key : Key) (attached : Option Bytes) :
    (r.meet key attached).toOption = none := by
  unfold meet
  split
  · rfl
  · rw [settle_waiting hw]
    rfl

theorem place_waiting (value : Bytes) : (r.place value).toOption = none := by
  unfold place
  split
  · rfl
  · rw [settle_waiting hw]
    rfl

theorem long_waiting (g : Grammar) (body : Bytes) : (r.long g body).toOption = none := by
  unfold long
  dsimp only
  split
  · exact meet_waiting hw _ _
  · rfl

theorem letters_waiting (g : Grammar) (letter : UInt8) (rest : Bytes) :
    (r.letters g (letter :: rest)).toOption = none := by
  unfold letters
  split
  · rfl
  split
  · rename_i key _ _
    have hmeet := meet_waiting hw key none
    cases hm : r.meet key none with
    | error halt => rfl
    | ok r' =>
      rw [hm] at hmeet
      cases hmeet
  · split <;> exact meet_waiting hw _ _

theorem takeAll_waiting_plain (hp : r.plainOnly = true) (g : Grammar) (args : List Bytes) :
    (r.takeAll g args).toOption = none := by
  cases args with
  | nil => rw [takeAll, settle_waiting hw]; rfl
  | cons arg args =>
    have htake : r.take g arg = (r.place arg).mapError .fault := by
      unfold take
      rw [if_pos hp]
    rw [takeAll_cons, htake, toOption_mapError, place_waiting hw]
    rfl

theorem takeAll_waiting {body : Bytes} (hne : body ≠ []) (g : Grammar) (args : List Bytes) :
    (r.takeAll g ((0x2D :: body) :: args)).toOption = none := by
  by_cases hp : r.plainOnly = true
  · exact takeAll_waiting_plain hw hp g _
  obtain ⟨b, body, rfl⟩ := List.exists_cons_of_ne_nil hne
  rw [takeAll_cons]
  unfold take
  rw [if_neg hp]
  split
  · exact takeAll_waiting_plain (r := { r with plainOnly := true }) hw rfl g args
  · rw [long_waiting hw]
    rfl
  · rw [letters_waiting hw]
    rfl
  · rename_i hletter
    exact absurd rfl (hletter b body)

theorem take_waiting (hp : r.plainOnly = false) (hv : value.head? ≠ some 0x2D ∨ value = [0x2D])
    (g : Grammar) : r.take g value = .ok { r with pending := some (k, some value) } := by
  unfold take
  rw [if_neg (by simp [hp])]
  rcases hv with hv | rfl
  · split
    · exact absurd rfl hv
    · exact absurd rfl hv
    · exact absurd rfl hv
    · simp [hw]
  · simp [hw]

end Waiting

/-! ## A line of settings -/

/-- Nothing that has been read bears on how the next argument is read. -/
structure Ready (r : Reading) : Prop where
  options : r.plainOnly = false
  complete : ∀ key, r.pending ≠ some (key, none)

/-- Takes settings one after the other. -/
def acceptAll (r : Reading) : List Given → Option Reading
  | [] => some r
  | x :: l =>
    if x.Legible then (r.accept x.key x.value).toOption.bind fun r => acceptAll r l else none

theorem take_long (hr : r.plainOnly = false) {body : Bytes} (hne : body ≠ []) :
    r.take g (0x2D :: 0x2D :: body) = r.long g body := by
  obtain ⟨b, body, rfl⟩ := List.exists_cons_of_ne_nil hne
  unfold take
  rw [hr]
  rfl

theorem long_name (hg : TakesSettings g) (hk : key ∈ settingKeys) :
    r.long g (nameOf key) = r.meet key none := by
  unfold long
  rw [splitAtFirst, pieces_of_not_mem (not_mem_nameOf hk)]
  simp only [byLong?_nameOf hg hk]

theorem long_name_value (hg : TakesSettings g) (hk : key ∈ settingKeys) (value : Bytes) :
    r.long g (nameOf key ++ 0x3D :: value) = r.meet key (some value) := by
  unfold long
  rw [splitAtFirst_append (not_mem_nameOf hk)]
  simp only [byLong?_nameOf hg hk]

/-- How far a line has been read after one more setting. A value that is attached is taken at once,
and any other one when the line goes on. -/
def give (r : Reading) (x : Given) : Option Reading :=
  r.settle.toOption.bind fun r =>
    if x.Legible then
      if x.attached then (r.accept x.key x.value).toOption
      else some { r with pending := some (x.key, some x.value) }
    else none

theorem takeAll_words (hg : TakesSettings g) (hr : r.Ready) (x : Given) (args : List Bytes) :
    (r.takeAll g (x.words ++ args)).toOption =
      (r.give x).bind fun r => (r.takeAll g args).toOption := by
  unfold Given.words give
  by_cases hx : x.attached = true
  · have hlegible : x.Legible := .inl hx
    rw [if_pos hx, List.singleton_append, takeAll_cons, take_long hr.options (by simp),
      long_name_value hg x.isSetting, meet_setting x.isSetting]
    cases r.settle with
    | error fault => rfl
    | ok r₀ =>
      rw [toOption_ok, Option.bind_some, if_pos hlegible, if_pos hx]
      dsimp only
      rw [toOption_mapError]
  · rw [if_neg hx, List.cons_append, List.singleton_append, takeAll_cons,
      take_long hr.options (nameOf_ne_nil x.isSetting), long_name hg x.isSetting,
      meet_setting x.isSetting]
    cases hs : r.settle with
    | error fault => rfl
    | ok r₀ =>
      have hplain : r₀.plainOnly = false := (settle_pending hs).2.trans hr.options
      dsimp only
      rw [toOption_ok, toOption_ok, Option.bind_some, Option.bind_some, if_neg hx]
      by_cases hlegible : x.Legible
      · have htake := take_waiting (r := { r₀ with pending := some (x.key, none) }) rfl hplain
          (hlegible.resolve_left hx) g
        rw [if_pos hlegible, takeAll_cons, htake, toOption_ok, Option.bind_some]
      · obtain ⟨body, hne, hbody⟩ := Given.eq_of_not_legible hlegible
        rw [if_neg hlegible, hbody, takeAll_waiting rfl hne, Option.bind_none]

theorem ready_of_give (hr : r.Ready) (h : r.give x = some r') : r'.Ready := by
  obtain ⟨r₀, hs, h⟩ := Option.bind_eq_some_iff.1 h
  obtain ⟨hnone, hplain⟩ := settle_pending (toOption_eq_some_iff.1 hs)
  have hoptions : r₀.plainOnly = false := hplain.trans hr.options
  split at h
  · split at h
    · obtain ⟨-, -, rfl⟩ := accept_eq_ok_iff.1 (toOption_eq_some_iff.1 h)
      exact ⟨hoptions, by simp [hnone]⟩
    · cases h
      exact ⟨hoptions, by simp⟩
  · cases h

theorem settle_of_give (r : Reading) (x : Given) :
    ((r.give x).bind fun r => r.settle.toOption) = r.settle.toOption.bind fun r =>
      if x.Legible then (r.accept x.key x.value).toOption else none := by
  unfold give
  cases hs : r.settle with
  | error fault => rfl
  | ok r₀ =>
    have hnone : r₀.pending = none := (settle_pending hs).1
    rw [toOption_ok, Option.bind_some, Option.bind_some]
    by_cases hlegible : x.Legible
    · rw [if_pos hlegible, if_pos hlegible]
      by_cases hx : x.attached = true
      · rw [if_pos hx]
        cases hacc : r₀.accept x.key x.value with
        | error fault => rfl
        | ok r₁ =>
          have hnone₁ : r₁.pending = none := by
            obtain ⟨-, -, rfl⟩ := accept_eq_ok_iff.1 hacc
            exact hnone
          rw [toOption_ok, Option.bind_some, settle_of_none hnone₁, toOption_ok]
      · have hsettle : ({ r₀ with pending := some (x.key, some x.value) } : Reading).settle =
            r₀.accept x.key x.value := by
          unfold settle
          rw [← hnone]
        rw [if_neg hx, Option.bind_some, hsettle]
    · rw [if_neg hlegible, if_neg hlegible]
      rfl

/-- A line of settings takes them one after the other, behind what has been read before. -/
theorem takeAll_spell (hg : TakesSettings g) (hr : r.Ready) :
    (r.takeAll g (spell l)).toOption = r.settle.toOption.bind fun r => r.acceptAll l := by
  induction l generalizing r with
  | nil =>
    rw [spell, List.flatMap_nil, takeAll, toOption_mapError]
    cases r.settle <;> rfl
  | cons x l ih =>
    have hspell : spell (x :: l) = x.words ++ spell l := List.flatMap_cons
    have hrest : ((r.give x).bind fun r => (r.takeAll g (spell l)).toOption) =
        ((r.give x).bind fun r => r.settle.toOption).bind fun r => r.acceptAll l := by
      cases hgive : r.give x with
      | none => rfl
      | some r₁ => exact ih (ready_of_give hr hgive)
    rw [hspell, takeAll_words hg hr, hrest, settle_of_give, Option.bind_assoc]
    congr 1
    funext r₀
    rw [acceptAll]
    split <;> rfl

theorem acceptAll_cons_eq_some_iff :
    r.acceptAll (x :: l) = some r' ↔
      (x.Legible ∧ check x.key x.value = .ok ()) ∧ r.choices.lookup x.key = none ∧
        ({ r with choices := r.choices ++ [x.choice] } : Reading).acceptAll l = some r' := by
  rw [acceptAll]
  constructor
  · intro h
    split at h
    · rename_i hlegible
      obtain ⟨r₁, hacc, hrest⟩ := Option.bind_eq_some_iff.1 h
      obtain ⟨hnew, hcheck, rfl⟩ := accept_eq_ok_iff.1 (toOption_eq_some_iff.1 hacc)
      exact ⟨⟨hlegible, hcheck⟩, hnew, hrest⟩
    · cases h
  · rintro ⟨⟨hlegible, hcheck⟩, hnew, hrest⟩
    rw [if_pos hlegible, accept_eq_ok_iff.2 ⟨hnew, hcheck, rfl⟩, toOption_ok, Option.bind_some]
    exact hrest

theorem lookup_eq_none_iff {c : Choices} : c.lookup key = none ↔ key ∉ c.map Prod.fst := by
  rw [List.lookup_eq_none_iff, List.mem_map, not_exists]
  exact forall_congr' fun p => by rw [not_and, bne_iff_ne, ne_comm]

theorem nodup_append_choice {c : Choices} (hn : (c.map Prod.fst).Nodup) (x : Given) :
    ((c ++ [x.choice]).map Prod.fst).Nodup ↔ c.lookup x.key = none := by
  rw [lookup_eq_none_iff, List.map_append, List.map_singleton, List.nodup_append]
  constructor
  · rintro ⟨-, -, hdistinct⟩ hmem
    exact hdistinct _ hmem _ (List.mem_singleton.2 rfl) rfl
  · intro hnew
    refine ⟨hn, List.pairwise_singleton _ _, fun key hkey key' hkey' hsame => hnew ?_⟩
    rw [List.mem_singleton.1 hkey'] at hsame
    rwa [hsame] at hkey

theorem acceptAll_eq_some_iff (hn : (r.choices.map Prod.fst).Nodup) :
    r.acceptAll l = some r' ↔
      (∀ x ∈ l, x.Legible ∧ check x.key x.value = .ok ()) ∧
        ((r.choices ++ l.map Given.choice).map Prod.fst).Nodup ∧
          r' = { r with choices := r.choices ++ l.map Given.choice } := by
  induction l generalizing r with
  | nil =>
    rw [acceptAll, List.map_nil, List.append_nil, Option.some.injEq]
    exact ⟨fun h => ⟨by simp, hn, h.symm⟩, fun h => h.2.2.symm⟩
  | cons x l ih =>
    have happend : r.choices ++ (x :: l).map Given.choice =
        (r.choices ++ [x.choice]) ++ l.map Given.choice := List.append_cons _ _ _
    rw [acceptAll_cons_eq_some_iff, List.forall_mem_cons, happend]
    constructor
    · rintro ⟨hx, hnew, hrest⟩
      obtain ⟨hl, hnodup, hr'⟩ := (ih ((nodup_append_choice hn x).2 hnew)).1 hrest
      exact ⟨⟨hx, hl⟩, hnodup, hr'⟩
    · rintro ⟨⟨hx, hl⟩, hnodup, hr'⟩
      have hn₁ : ((r.choices ++ [x.choice]).map Prod.fst).Nodup := by
        rw [List.map_append] at hnodup
        exact (List.nodup_append.1 hnodup).1
      exact ⟨hx, (nodup_append_choice hn x).1 hn₁, (ih hn₁).2 ⟨hl, hnodup, hr'⟩⟩

theorem takeAll_start_eq_ok_iff (hg : TakesSettings g) (placed : List Key) :
    ({ placed } : Reading).takeAll g (spell l) = .ok r ↔
      (∀ x ∈ l, x.Legible ∧ check x.key x.value = .ok ()) ∧ (l.map Given.key).Nodup ∧
        r = { choices := l.map Given.choice, placed } := by
  have hread : (({ placed } : Reading).takeAll g (spell l)).toOption =
      ({ placed } : Reading).acceptAll l := by
    rw [takeAll_spell hg ⟨rfl, by simp⟩]
    rfl
  rw [← toOption_eq_some_iff, hread,
    acceptAll_eq_some_iff (r := { placed }) List.nodup_nil, List.nil_append, Given.map_fst_choice]

end Reading

end ModuleInstall.Options
