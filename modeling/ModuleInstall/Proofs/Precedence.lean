import ModuleInstall.Command.InstallStdlib
import ModuleInstall.Proofs.Arguments

/-! # Where a setting comes from -/

namespace ModuleInstall.Options

variable {g : Grammar} {env env' : Variables} {key : Key} {keys : List Key} {value : Bytes}
  {r r' : Reading} {l l' : List Given} {x : Given} {c c' : Choices}

/-! ## The environment -/

/-- What the environment holds for a key. -/
def held (env : Variables) (key : Key) : Option Bytes := key.envName?.bind env

theorem mem_settingKeys_of_held (h : held env key = some value) : key ∈ settingKeys := by
  revert h
  cases key <;> simp [held, Key.envName?, settingKeys]

namespace Reading

theorem lookup_accept (h : r.accept key value = .ok r') (k : Key) :
    r'.choices.lookup k = (r.choices.lookup k).or (if k = key then some value else none) := by
  obtain ⟨-, -, rfl⟩ := accept_eq_ok_iff.1 h
  rw [List.lookup_append, List.lookup_cons]
  by_cases hk : k = key
  · simp [hk]
  · rw [beq_eq_false_iff_ne.2 hk, if_neg hk]
    rfl

theorem exists_fill :
    (∃ r', r.fill env keys = .ok r') ↔
      ∀ key ∈ keys, r.choices.lookup key = none →
        ∀ value, held env key = some value → check key value = .ok () := by
  fun_induction fill env r keys with
  | case1 r => simp
  | case2 r key keys value hheld hnone r₁ hacc ih =>
    have hcheck : check key value = .ok () := (accept_eq_ok_iff.1 hacc).2.1
    rw [ih, List.forall_mem_cons]
    constructor
    · intro h
      refine ⟨fun _ value' hheld' => ?_, fun k hk hnew => ?_⟩
      · cases hheld.symm.trans hheld'
        exact hcheck
      · by_cases hsame : k = key
        · intro value' hheld'
          rw [hsame] at hheld' ⊢
          cases hheld.symm.trans hheld'
          exact hcheck
        · exact h k hk (by rw [lookup_accept hacc, hnew, if_neg hsame]; rfl)
    · rintro ⟨-, h⟩ k hk hnew
      rw [lookup_accept hacc, Option.or_eq_none_iff] at hnew
      exact h k hk hnew.1
  | case3 r key keys value hheld hnone fault hacc =>
    refine ⟨nofun, fun h => ?_⟩
    rw [accept_eq_ok_iff.2 ⟨hnone, h key List.mem_cons_self hnone value hheld, rfl⟩] at hacc
    cases hacc
  | case4 r key keys hskip ih =>
    rw [ih, List.forall_mem_cons]
    exact (and_iff_right fun hnone value hheld => (hskip value hnone hheld).elim).symm

theorem lookup_fill (h : r.fill env keys = .ok r') (k : Key) :
    r'.choices.lookup k =
      (r.choices.lookup k).or (if k ∈ keys then held env k else none) := by
  fun_induction fill env r keys with
  | case1 r =>
    cases h
    simp
  | case2 r key keys value hheld hnone r₁ hacc ih =>
    rw [ih h, lookup_accept hacc, Option.or_assoc]
    by_cases hk : k = key
    · subst hk
      rw [if_pos rfl, if_pos List.mem_cons_self, held, hheld]
      rfl
    · simp [hk]
  | case3 r key keys value hheld hnone fault hacc => cases h
  | case4 r key keys hskip ih =>
    rw [ih h]
    by_cases hk : k = key
    · subst hk
      cases hlookup : r.choices.lookup k with
      | some value => rfl
      | none =>
        have hheld : held env k = none := Option.eq_none_iff_forall_ne_some.2 fun value hheld =>
          hskip value hlookup hheld
        simp [hheld]
    · simp [hk]

theorem fill_congr (h : ∀ key ∈ keys, r.choices.lookup key = none → held env' key = held env key) :
    r.fill env' keys = r.fill env keys := by
  fun_induction fill env r keys with
  | case1 r => rfl
  | case2 r key keys value hheld hnone r₁ hacc ih =>
    have hheld' : key.envName?.bind env' = some value :=
      (h key List.mem_cons_self hnone).trans hheld
    rw [fill, hnone, hheld']
    dsimp only
    rw [hacc]
    refine ih fun k hk hnew => h k (List.mem_cons_of_mem _ hk) ?_
    rw [lookup_accept hacc, Option.or_eq_none_iff] at hnew
    exact hnew.1
  | case3 r key keys value hheld hnone fault hacc =>
    have hheld' : key.envName?.bind env' = some value :=
      (h key List.mem_cons_self hnone).trans hheld
    rw [fill, hnone, hheld']
    dsimp only
    rw [hacc]
  | case4 r key keys hskip ih =>
    rw [fill]
    split
    · rename_i value hnone hheld'
      exact (hskip value hnone ((h key List.mem_cons_self hnone).symm.trans hheld')).elim
    · exact ih fun k hk => h k (List.mem_cons_of_mem _ hk)

end Reading

/-! ## What is accepted -/

/-- The value that a line gives for a key. -/
def given? (l : List Given) (key : Key) : Option Bytes := (l.map Given.choice).lookup key

/-- The value of a key, from the line or else from the environment. -/
def chosen (env : Variables) (l : List Given) (key : Key) : Option Bytes :=
  (given? l key).or (held env key)

/-- A home is not empty, and everything else is well-formed text. -/
def Fits (key : Key) (value : Bytes) : Prop :=
  if key = .home then value ≠ [] else Utf8.isText value = true

instance (key : Key) (value : Bytes) : Decidable (Fits key value) :=
  inferInstanceAs (Decidable (if key = .home then value ≠ [] else Utf8.isText value = true))

/-- What it takes for a line to be accepted in an environment. -/
structure Accepted (g : Grammar) (env : Variables) (l : List Given) : Prop where
  once : (l.map Given.key).Nodup
  legible : ∀ x ∈ l, x.Legible
  fits : ∀ x ∈ l, Fits x.key x.value
  environment : ∀ key ∈ settingKeys, given? l key = none → ∀ value, held env key = some value →
    Fits key value
  required : ∀ key ∈ g.required, chosen env l key ≠ none

theorem check_eq_ok_iff (hk : key ∈ settingKeys) :
    Reading.check key value = .ok () ↔ Fits key value := by
  obtain rfl | rfl | rfl | rfl := mem_settingKeys_iff.1 hk <;>
    simp [Reading.check, Fits, Key.shape]

theorem given?_eq_none_iff : given? l key = none ↔ key ∉ l.map Given.key := by
  rw [given?, Reading.lookup_eq_none_iff, Given.map_fst_choice]

theorem exists_of_given? (h : given? l key = some value) : ∃ x ∈ l, x.choice = (key, value) := by
  obtain ⟨before, after, heq, -⟩ := List.lookup_eq_some_iff.1 h
  exact List.mem_map.1 (heq ▸ List.mem_append_right _ List.mem_cons_self)

theorem chosen_fits (h : Accepted g env l) (hk : key ∈ settingKeys)
    (hv : chosen env l key = some value) : Fits key value := by
  rw [chosen, Option.or_eq_some_iff] at hv
  rcases hv with hv | ⟨hnone, hv⟩
  · obtain ⟨x, hx, hchoice⟩ := exists_of_given? hv
    cases hchoice
    exact h.fits x hx
  · exact h.environment key hk hnone value hv

theorem takeAll_eq_ok_iff (hg : TakesSettings g) :
    ({ placed := g.placed } : Reading).takeAll g (spell l) = .ok r ↔
      ((l.map Given.key).Nodup ∧ (∀ x ∈ l, x.Legible) ∧ ∀ x ∈ l, Fits x.key x.value) ∧
        r = { choices := l.map Given.choice, placed := g.placed } := by
  have hcheck (x : Given) : Reading.check x.key x.value = .ok () ↔ Fits x.key x.value :=
    check_eq_ok_iff x.isSetting
  simp only [Reading.takeAll_start_eq_ok_iff hg, hcheck]
  constructor
  · rintro ⟨hl, honce, hr⟩
    exact ⟨⟨honce, fun x hx => (hl x hx).1, fun x hx => (hl x hx).2⟩, hr⟩
  · rintro ⟨⟨honce, hlegible, hfits⟩, hr⟩
    exact ⟨fun x hx => ⟨hlegible x hx, hfits x hx⟩, honce, hr⟩

theorem exists_fill_named (hg : TakesSettings g) (hr : r.choices = l.map Given.choice) :
    (∃ r', r.fill env g.named = .ok r') ↔
      ∀ key ∈ settingKeys, given? l key = none → ∀ value, held env key = some value →
        Fits key value := by
  rw [Reading.exists_fill, hr]
  constructor
  · intro h key hk hnone value hheld
    exact (check_eq_ok_iff hk).1 (h key (hg key hk) hnone value hheld)
  · intro h key _ hnone value hheld
    have hk : key ∈ settingKeys := mem_settingKeys_of_held hheld
    exact (check_eq_ok_iff hk).2 (h key hk hnone value hheld)

theorem lookup_fill_named (hg : TakesSettings g) (hr : r.choices = l.map Given.choice)
    (h : r.fill env g.named = .ok r') (key : Key) : r'.choices.lookup key = chosen env l key := by
  rw [Reading.lookup_fill h, hr, chosen, given?]
  split
  · rfl
  · rename_i hnamed
    cases hheld : held env key with
    | none => rfl
    | some value => exact absurd (hg key (mem_settingKeys_of_held hheld)) hnamed

/-- Where a line is accepted, the choices are what was chosen. -/
theorem parse_spec (hg : TakesSettings g) (env : Variables) (l : List Given) :
    match parse g env (spell l) with
    | .ok c => Accepted g env l ∧ ∀ key, c.lookup key = chosen env l key
    | .error _ => ¬Accepted g env l := by
  unfold parse
  cases htake : ({ placed := g.placed } : Reading).takeAll g (spell l) with
  | error halt =>
    intro ha
    rw [(takeAll_eq_ok_iff hg).2 ⟨⟨ha.once, ha.legible, ha.fits⟩, rfl⟩] at htake
    cases htake
  | ok r =>
    obtain ⟨⟨honce, hlegible, hfits⟩, hr⟩ := (takeAll_eq_ok_iff hg).1 htake
    have hchoices : r.choices = l.map Given.choice := by rw [hr]
    dsimp only
    cases hfill : r.fill env g.named with
    | error fault =>
      intro ha
      obtain ⟨r', hr'⟩ := (exists_fill_named hg hchoices).2 ha.environment
      rw [hfill] at hr'
      cases hr'
    | ok r' =>
      have hlookup := lookup_fill_named hg hchoices hfill
      have hvariables := (exists_fill_named hg hchoices).1 ⟨r', hfill⟩
      dsimp only
      cases hmissing : g.required.filter fun key => (r'.choices.lookup key).isNone with
      | nil =>
        refine ⟨⟨honce, hlegible, hfits, hvariables, fun key hkey hnone => ?_⟩, hlookup⟩
        refine List.filter_eq_nil_iff.1 hmissing key hkey ?_
        rw [hlookup, hnone]
        rfl
      | cons key _ =>
        intro ha
        obtain ⟨hkey, hnone⟩ := List.mem_filter.1 (hmissing ▸ List.mem_cons_self : key ∈ _)
        rw [hlookup, Option.isNone_iff_eq_none] at hnone
        exact ha.required key hkey hnone

theorem parse_congr (hg : TakesSettings g)
    (h : ∀ key, given? l key = none → held env' key = held env key) :
    parse g env' (spell l) = parse g env (spell l) := by
  unfold parse
  cases htake : ({ placed := g.placed } : Reading).takeAll g (spell l) with
  | error halt => rfl
  | ok r =>
    obtain ⟨-, hr⟩ := (takeAll_eq_ok_iff hg).1 htake
    have hfill : r.fill env' g.named = r.fill env g.named :=
      Reading.fill_congr fun key _ hnone => h key (by rwa [hr] at hnone)
    dsimp only
    rw [hfill]

/-! ## The settings -/

/-- What a line and an environment come to: settings, or no home to put them in, or no work. -/
def outcome (g : Grammar) (env : Variables) (accountHome : Option Path) (l : List Given) :
    Option (Except SettingsError Settings) :=
  (parse g env (spell l)).toOption.map fun c => c.settings (userHome? env accountHome)

/-- Every setting has the value from the line, or else that of its variable, or else its default. -/
structure Resolved (env : Variables) (accountHome : Option Path) (l : List Given) (s : Settings) :
    Prop where
  home : some s.home =
    (((given? l .home).or (env "JIL_HOME")).map Path.mk).or (userHome? env accountHome)
  compiler : Utf8.encode s.compiler =
    ((given? l .compiler).or (env "JIL_COMPILER")).getD (Utf8.encode "javac")
  release : Utf8.encode s.release =
    ((given? l .release).or (env "JIL_RELEASE")).getD (Utf8.encode "17")
  classpath : Utf8.encode s.classpath =
    ((given? l .classpath).or (env "JIL_CLASSPATH")).getD (Utf8.encode "../out/production/jil/")
  sourceExt : s.sourceExt = Utf8.encode "java"
  compiledExt : s.compiledExt = Utf8.encode "class"
  precompiledExt : s.precompiledExt = Utf8.encode "jil"

theorem encode_textOr {other : String}
    (h : ∀ value, c.value? key = some value → Utf8.isText value = true) :
    Utf8.encode (c.textOr key other) = (c.value? key).getD (Utf8.encode other) := by
  unfold Choices.textOr
  cases hv : c.value? key with
  | none => rfl
  | some value => exact Utf8.encode_toText (h value hv)

theorem settings_congr (h : ∀ key, c.lookup key = c'.lookup key) (userHome : Option Path) :
    c.settings userHome = c'.settings userHome := by
  simp only [Choices.settings, Choices.textOr, Choices.value?, h]

theorem resolved_of_settings (ha : Accepted g env l)
    (hc : ∀ key, c.lookup key = chosen env l key) (accountHome : Option Path) :
    match c.settings (userHome? env accountHome) with
    | .ok s => Resolved env accountHome l s
    | .error e => e = .noHome ∧ given? l .home = none ∧ env "JIL_HOME" = none ∧
      userHome? env accountHome = none := by
  have hvalue (key : Key) : c.value? key = chosen env l key := hc key
  have htext (key : Key) (hk : key ∈ settingKeys) (hne : key ≠ .home) (other : String) :
      Utf8.encode (c.textOr key other) = (chosen env l key).getD (Utf8.encode other) := by
    rw [← hvalue]
    refine encode_textOr fun value hv => ?_
    have hfits := chosen_fits ha hk ((hvalue key).symm.trans hv)
    rwa [Fits, if_neg hne] at hfits
  unfold Choices.settings
  cases hhome : ((c.value? .home).map Path.mk).or (userHome? env accountHome) with
  | none =>
    rw [Option.or_eq_none_iff, Option.map_eq_none_iff, hvalue, chosen,
      Option.or_eq_none_iff] at hhome
    exact ⟨rfl, hhome.1.1, hhome.1.2, hhome.2⟩
  | some home =>
    exact {
      home := by rw [← hhome, hvalue]; rfl
      compiler := htext .compiler (by decide) (by decide) _
      release := htext .release (by decide) (by decide) _
      classpath := htext .classpath (by decide) (by decide) _
      sourceExt := rfl
      compiledExt := rfl
      precompiledExt := rfl }

theorem outcome_congr (hg : TakesSettings g) (ha : Accepted g env l ↔ Accepted g env l')
    (hc : Accepted g env l → ∀ key, chosen env l key = chosen env l' key)
    (accountHome : Option Path) :
    outcome g env accountHome l = outcome g env accountHome l' := by
  have hl := parse_spec hg env l
  have hl' := parse_spec hg env l'
  unfold outcome
  cases hp : parse g env (spell l) with
  | error halt =>
    rw [hp] at hl
    cases hp' : parse g env (spell l') with
    | error halt' => rfl
    | ok c' =>
      rw [hp'] at hl'
      exact absurd (ha.2 hl'.1) hl
  | ok c =>
    rw [hp] at hl
    cases hp' : parse g env (spell l') with
    | error halt' =>
      rw [hp'] at hl'
      exact absurd (ha.1 hl.1) hl'
    | ok c' =>
      rw [hp'] at hl'
      have hsame (key : Key) : c.lookup key = c'.lookup key := by rw [hl.2, hl'.2, hc hl.1]
      rw [Reading.toOption_ok, Reading.toOption_ok, Option.map_some, Option.map_some,
        settings_congr hsame]

/-! ## Order and form -/

theorem lookup_perm (h : c.Perm c') (hn : (c.map Prod.fst).Nodup) :
    c.lookup key = c'.lookup key := by
  induction h with
  | nil => rfl
  | cons p _ ih => rw [List.lookup_cons, List.lookup_cons, ih (List.nodup_cons.1 hn).2]
  | swap p q c =>
    have hne : q.1 ≠ p.1 := fun h => (List.nodup_cons.1 hn).1 (h ▸ List.mem_cons_self)
    rw [List.lookup_cons, List.lookup_cons, List.lookup_cons, List.lookup_cons]
    cases hq : key == q.1 with
    | false => rfl
    | true =>
      have hp : (key == p.1) = false := beq_eq_false_iff_ne.2 (beq_iff_eq.1 hq ▸ hne)
      rw [hp]
  | trans h₁ _ ih₁ ih₂ => exact (ih₁ hn).trans (ih₂ ((h₁.map Prod.fst).nodup_iff.1 hn))

theorem chosen_perm (h : l.Perm l') (hn : (l.map Given.key).Nodup) (env : Variables) (key : Key) :
    chosen env l key = chosen env l' key := by
  rw [chosen, chosen, given?, given?,
    lookup_perm (h.map Given.choice) (Given.map_fst_choice l ▸ hn)]

theorem accepted_of_perm (h : l.Perm l') (ha : Accepted g env l) : Accepted g env l' where
  once := (h.map Given.key).nodup_iff.1 ha.once
  legible x hx := ha.legible x (h.mem_iff.2 hx)
  fits x hx := ha.fits x (h.mem_iff.2 hx)
  environment key hk hnone := by
    rw [given?_eq_none_iff, ← (h.map Given.key).mem_iff, ← given?_eq_none_iff] at hnone
    exact ha.environment key hk hnone
  required key hk := chosen_perm h ha.once env key ▸ ha.required key hk

theorem accepted_of_choices (hc : l'.map Given.choice = l.map Given.choice)
    (hlegible : ∀ x ∈ l', x.Legible) (ha : Accepted g env l) : Accepted g env l' := by
  have hgiven : given? l' = given? l := by
    funext key
    rw [given?, given?, hc]
  have hchosen (key : Key) : chosen env l' key = chosen env l key := by
    rw [chosen, chosen, hgiven]
  have honce : (l'.map Given.key).Nodup := by
    rw [← Given.map_fst_choice, hc, Given.map_fst_choice]
    exact ha.once
  refine ⟨honce, hlegible, fun x hx => ?_,
    hgiven ▸ ha.environment, fun key hk => hchosen key ▸ ha.required key hk⟩
  obtain ⟨y, hy, hsame⟩ := List.mem_map.1 (hc ▸ List.mem_map_of_mem hx : x.choice ∈ _)
  obtain ⟨hkey, hvalue⟩ := Prod.mk.inj hsame
  rw [← hkey, ← hvalue]
  exact ha.fits y hy

theorem legible_of_head? (h : x.value.head? ≠ some 0x2D) : x.Legible := .inr (.inl h)

theorem accepted_replace {y : Given} {before after : List Given} (hsame : y.choice = x.choice)
    (hy : y.Legible) (ha : Accepted g env (before ++ x :: after)) :
    Accepted g env (before ++ y :: after) := by
  refine accepted_of_choices (by simp [hsame]) (fun z hz => ?_) ha
  rcases List.mem_append.1 hz with hz | hz
  · exact ha.legible z (List.mem_append_left _ hz)
  rcases List.mem_cons.1 hz with rfl | hz
  · exact hy
  · exact ha.legible z (List.mem_append_right _ (List.mem_cons_of_mem _ hz))

/-! ## Variables -/

theorem eq_of_envName? {key' : Key} {name : String} (h : key.envName? = some name)
    (h' : key'.envName? = some name) : key = key' := by
  have hsame : key.envName? = key'.envName? := h.trans h'.symm
  revert hsame h
  cases key <;> cases key' <;> simp [Key.envName?]

theorem envName?_ne_home (key : Key) : key.envName? ≠ some "HOME" := by
  cases key <;> decide

theorem held_congr (hnone : given? l key = none)
    (h : ∀ name, (∀ x ∈ l, x.key.envName? ≠ some name) → env' name = env name) :
    held env' key = held env key := by
  unfold held
  cases hname : key.envName? with
  | none => rfl
  | some name =>
    refine h name fun x hx hsame => given?_eq_none_iff.1 hnone ?_
    rw [eq_of_envName? hname hsame]
    exact List.mem_map_of_mem hx

/-! ## Precedence and independence -/

/-- Every setting comes from the line, else from its own variable, else from its default. Neither
the order of the settings on the line nor the form of one whose value cannot be mistaken for an
option matters, and the variables of settings that are given do not matter at all. -/
theorem settings_precedence (hg : TakesSettings g) (env : Variables) (accountHome : Option Path)
    (l : List Given) :
    (match parse g env (spell l) with
      | .ok c => Accepted g env l ∧
        match c.settings (userHome? env accountHome) with
        | .ok s => Resolved env accountHome l s
        | .error e => e = .noHome ∧ given? l .home = none ∧ env "JIL_HOME" = none ∧
          userHome? env accountHome = none
      | .error _ => ¬Accepted g env l) ∧
    (∀ l', l.Perm l' → outcome g env accountHome l' = outcome g env accountHome l) ∧
    (∀ before x after, l = before ++ x :: after → x.value.head? ≠ some 0x2D →
      outcome g env accountHome (before ++ x.switched :: after) = outcome g env accountHome l) ∧
    (∀ env' : Variables,
      (∀ name, (∀ x ∈ l, x.key.envName? ≠ some name) → env' name = env name) →
        parse g env' (spell l) = parse g env (spell l) ∧
          outcome g env' accountHome l = outcome g env accountHome l) := by
  refine ⟨?_, fun l' hperm => ?_, fun before x after hl hx => ?_, fun env' henv => ?_⟩
  · have hspec := parse_spec hg env l
    cases hp : parse g env (spell l) with
    | error halt =>
      rw [hp] at hspec
      exact hspec
    | ok c =>
      rw [hp] at hspec
      exact ⟨hspec.1, resolved_of_settings hspec.1 hspec.2 accountHome⟩
  · exact outcome_congr hg ⟨accepted_of_perm hperm.symm, accepted_of_perm hperm⟩
      (fun ha key => chosen_perm hperm.symm ha.once env key) accountHome
  · subst hl
    have hsame : x.switched.choice = x.choice := rfl
    have haccepted : Accepted g env (before ++ x.switched :: after) ↔
        Accepted g env (before ++ x :: after) :=
      ⟨accepted_replace hsame.symm (legible_of_head? hx),
        accepted_replace hsame (legible_of_head? hx)⟩
    refine outcome_congr hg haccepted (fun _ key => ?_) accountHome
    rw [chosen, chosen, given?, given?, List.map_append, List.map_append, List.map_cons,
      List.map_cons, hsame]
  · have hheld (key : Key) (hnone : given? l key = none) : held env' key = held env key :=
      held_congr hnone henv
    have hhome : userHome? env' accountHome = userHome? env accountHome := by
      rw [userHome?, userHome?, henv "HOME" fun x _ => envName?_ne_home x.key]
    have hparse := parse_congr hg hheld
    exact ⟨hparse, by rw [outcome, outcome, hparse, hhome]⟩

def sampleHome : Given := ⟨.home, by decide, Utf8.encode "/h", false⟩

/-- A classpath that looks like an option. -/
def sampleClasspath : Given := ⟨.classpath, by decide, Utf8.encode "-x", true⟩

/-- A compiler and an empty release, next to a home that would not be accepted. -/
def sampleVariables : Variables := fun name =>
  if name = "JIL_COMPILER" then some (Utf8.encode "ecj")
  else if name = "JIL_RELEASE" ∨ name = "JIL_HOME" then some []
  else none

def sampleSettings : Settings where
  home := ⟨Utf8.encode "/h"⟩
  compiler := "ecj"
  release := ""
  classpath := "-x"

theorem settings_precedence_sample :
    TakesSettings Command.installStdlib.grammar ∧
      outcome Command.installStdlib.grammar sampleVariables none [sampleHome, sampleClasspath] =
        some (.ok sampleSettings) ∧
      outcome Command.installStdlib.grammar sampleVariables none
          [sampleClasspath, sampleHome.switched] = some (.ok sampleSettings) ∧
      outcome Command.installStdlib.grammar
          (fun name => if name = "JIL_HOME" then none else sampleVariables name) none
          [sampleHome, sampleClasspath] = some (.ok sampleSettings) := by
  have hg : TakesSettings Command.installStdlib.grammar := by
    unfold TakesSettings
    decide
  have hmade : outcome Command.installStdlib.grammar sampleVariables none
      [sampleHome, sampleClasspath] = some (.ok sampleSettings) := rfl
  obtain ⟨-, hperm, -, hvariables⟩ :=
    settings_precedence hg sampleVariables none [sampleHome, sampleClasspath]
  obtain ⟨-, -, hform, -⟩ :=
    settings_precedence hg sampleVariables none [sampleClasspath, sampleHome]
  refine ⟨hg, hmade, ?_, ((hvariables _ fun name h => if_neg fun hname => ?_).2).trans hmade⟩
  · calc
      _ = outcome Command.installStdlib.grammar sampleVariables none
          [sampleClasspath, sampleHome] :=
        hform [sampleClasspath] sampleHome [] rfl (by decide)
      _ = some (.ok sampleSettings) := (hperm _ (.swap _ _ [])).trans hmade
  · exact h sampleHome List.mem_cons_self (hname ▸ rfl)

end ModuleInstall.Options
