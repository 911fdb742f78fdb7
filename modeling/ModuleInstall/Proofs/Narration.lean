import ModuleInstall.Proofs.Accounting
import ModuleInstall.Proofs.Finishing
import ModuleInstall.Proofs.Relating

/-! # What a run tells -/

namespace ModuleInstall

open ModuleInstall.Action

/-! ## Headers and complaints -/

/-- What is told of a module before its turn. -/
structure Header where
  number : Nat
  total : Nat
  name : String
  deriving DecidableEq, Repr

def Record.header? : Record → Option Header
  | .numbered number total name => some { number, total, name }
  | _ => none

def Record.complaint? : Record → Option String
  | .error text => some text
  | _ => none

namespace Session

/-- The headers on the standard output. -/
def headers (s : Session) : List Header := (s.told .output).filterMap Record.header?

/-- What is told of failures on the standard error stream. -/
def complaints (s : Session) : List String := (s.told .error).filterMap Record.complaint?

/-- What the records say to somebody who listens for some of them. -/
def heard {α : Type} (f : Record → Option α) (s : Session) : List α :=
  (printed s.events).filterMap f

theorem heard_record {α : Type} (f : Record → Option α) (s : Session) (r : Record) :
    (s.record [.printed r]).heard f = s.heard f ++ (f r).toList := by
  rw [heard, heard, printed_record, List.filterMap_append]
  cases h : f r <;> simp [h]

theorem heard_afterCompiling {α : Type} {f : Record → Option α} {i : Installer} {source : Path}
    {s : Session} (h : ∀ r ∈ printed (i.compiler s.files source).events, f r = none) :
    (i.afterCompiling source s).heard f = s.heard f := by
  rw [heard, printed_afterCompiling, List.filterMap_append, List.filterMap_eq_nil_iff.2 h,
    List.append_nil, heard]

theorem filterMap_told {α : Type} {f : Record → Option α} {stream : Stream}
    (h : ∀ r, r.stream ≠ stream → f r = none) (s : Session) :
    (s.told stream).filterMap f = s.heard f := by
  rw [told, List.filterMap_filter, heard]
  congr 1
  funext r
  by_cases hr : r.stream = stream
  · simp [hr]
  · simp [hr, h r hr]

theorem headers_eq (s : Session) : s.headers = s.heard Record.header? :=
  filterMap_told (fun r => by cases r <;> simp [Record.stream, Record.header?]) s

theorem complaints_eq (s : Session) : s.complaints = s.heard Record.complaint? :=
  filterMap_told (fun r => by cases r <;> simp [Record.stream, Record.complaint?]) s

theorem headers_record (s : Session) (r : Record) :
    (s.record [.printed r]).headers = s.headers ++ r.header?.toList := by
  rw [headers_eq, headers_eq, heard_record]

theorem complaints_record (s : Session) (r : Record) :
    (s.record [.printed r]).complaints = s.complaints ++ r.complaint?.toList := by
  rw [complaints_eq, complaints_eq, heard_record]

/-- Neither a header nor a complaint has been added. -/
structure Hushed (s t : Session) : Prop where
  headers : t.headers = s.headers
  complaints : t.complaints = s.complaints

theorem hushed_record (s : Session) {r : Record} (hh : r.header? = none)
    (hc : r.complaint? = none) : Hushed s (s.record [.printed r]) where
  headers := by rw [headers_record, hh, Option.toList_none, List.append_nil]
  complaints := by rw [complaints_record, hc, Option.toList_none, List.append_nil]

end Session

/-- A compiler that prints neither headers nor complaints of its own. -/
def Compiler.Terse (c : Compiler) : Prop :=
  ∀ fs source, ∀ r ∈ printed (c fs source).events, r.header? = none ∧ r.complaint? = none

theorem Machine.terse_compiler (m : Machine) (s : Settings) (here : Location) :
    (m.compiler s here).Terse := by
  intro fs source r hr
  unfold Machine.compiler at hr
  cases hs : m.start here (s.invocation source) fs with
  | error e => simp [hs, printed] at hr
  | ok started =>
    obtain ⟨directory, launch⟩ := started
    simp only [hs] at hr
    split at hr
    · -- What the compiler tells after its start are details.
      replace hr : r ∈ printed ((successRecords source _).map Event.printed) := hr
      rw [printed_map] at hr
      rcases List.mem_append.1 hr with hr | hr
      · obtain ⟨text, -, rfl⟩ := List.mem_map.1 hr
        exact ⟨rfl, rfl⟩
      · obtain rfl := List.mem_singleton.1 hr
        exact ⟨rfl, rfl⟩
    · simp [printed, Event.record?] at hr

namespace Installer

variable {i : Installer} {total number : Nat} {items rest handled : List (Path × Nat)}
  {path dir : Path} {paths : List Path} {entries : List (String × Outcome)}
  {entry : Option (String × Outcome)} {s t : Session} {e : InstallError}

theorem allowsHandling_hushed (ht : i.compiler.Terse) : i.AllowsHandling Session.Hushed where
  refl _ := ⟨rfl, rfl⟩
  trans _ _ _ h₁ h₂ := ⟨h₂.headers.trans h₁.headers, h₂.complaints.trans h₁.complaints⟩
  detail s _ := Session.hushed_record s rfl rfl
  warning s _ := Session.hushed_record s rfl rfl
  clear _ _ _ _ _ := ⟨rfl, rfl⟩
  make _ _ _ _ _ := ⟨rfl, rfl⟩
  write _ _ _ _ _ _ _ _ _ _ := ⟨rfl, rfl⟩
  remove _ _ _ _ _ := ⟨rfl, rfl⟩
  compile s source := by
    have hnone := ht s.files source
    constructor
    · rw [Session.headers_eq, Session.headers_eq]
      exact Session.heard_afterCompiling fun r hr => (hnone r hr).1
    · rw [Session.complaints_eq, Session.complaints_eq]
      exact Session.heard_afterCompiling fun r hr => (hnone r hr).2

/-! ## A turn -/

/-- The header of a listed file. -/
def headerOf (total : Nat) (item : Path × Nat) : Header where
  number := item.2
  total
  name := listedName item.1

/-- The texts of the errors among some entries. -/
def complaintsOf (entries : List (String × Outcome)) : List String :=
  ({ entries } : Report).failures.map (·.2.message)

theorem complaintsOf_append (entries more : List (String × Outcome)) :
    complaintsOf (entries ++ more) = complaintsOf entries ++ complaintsOf more := by
  simp [complaintsOf, Report.failures]

theorem headers_announcing (i : Installer) (total : Nat) (path : Path) (number : Nat)
    (s : Session) : (i.announcing total path number s).headers =
      s.headers ++ (i.modulesAmong [(path, number)]).map (headerOf total) := by
  unfold announcing
  by_cases hk : i.settings.kindOf path = .ignored
  · simp [hk, modulesAmong]
  · rw [if_neg hk, Session.headers_record, modulesAmong_cons hk]
    rfl

theorem complaints_announcing (i : Installer) (total : Nat) (path : Path) (number : Nat)
    (s : Session) : (i.announcing total path number s).complaints = s.complaints := by
  unfold announcing
  split
  · rfl
  · rw [Session.complaints_record]
    exact List.append_nil _

theorem headers_showing (outcome : Outcome) (s : Session) :
    (showing outcome s).headers = s.headers := by
  cases outcome with
  | failed e =>
    rw [showing, Session.headers_record]
    exact List.append_nil _
  | _ => rfl

theorem complaints_showing (name : String) (outcome : Outcome) (s : Session) :
    (showing outcome s).complaints = s.complaints ++ complaintsOf [(name, outcome)] := by
  cases outcome with
  | failed e => rw [showing, Session.complaints_record]; rfl
  | _ => exact (List.append_nil _).symm

theorem told_of_turn (ht : i.compiler.Terse)
    (h : i.handleListed total path number s = .ok entry t) :
    t.headers = s.headers ++ (i.modulesAmong [(path, number)]).map (headerOf total) ∧
      t.complaints = s.complaints ++ complaintsOf entry.toList ∧
      entry.toList.map Prod.fst = (i.modulesAmong [(path, number)]).map (listedName ·.1) := by
  have hentry := entryOf_handleListed h
  have hhush := (allowsHandling_hushed ht).relates_handle path (i.settings.kindOf path)
    (i.announcing total path number s)
  rw [run_handleListed] at h
  cases hh : i.handle path (i.settings.kindOf path) (i.announcing total path number s) with
  | error e s' => simp [hh] at h
  | ok outcome s' =>
    rw [hh] at h hhush
    obtain ⟨hheaders, hcomplaints⟩ := hhush
    simp only [after, headers_announcing, complaints_announcing] at hheaders hcomplaints
    cases outcome with
    | none =>
      cases h
      refine ⟨hheaders, hcomplaints.trans (List.append_nil _).symm, ?_⟩
      simp [modulesAmong, show i.settings.kindOf path = .ignored from hentry]
    | some outcome =>
      cases h
      refine ⟨?_, ?_, ?_⟩
      · rw [headers_showing, hheaders]
      · rw [complaints_showing (listedName path), hcomplaints]
        rfl
      · rw [modulesAmong_cons hentry.1]
        rfl

theorem told_of_last_turn (ht : i.compiler.Terse)
    (h : i.handleListed total path number s = .error e t) :
    i.settings.kindOf path = .precompiled ∧
      t.headers = s.headers ++ (i.modulesAmong [(path, number)]).map (headerOf total) ∧
      t.complaints = s.complaints := by
  have hhush := (allowsHandling_hushed ht).relates_handle path (i.settings.kindOf path)
    (i.announcing total path number s)
  have hrun := h
  rw [run_handleListed] at h
  cases hh : i.handle path (i.settings.kindOf path) (i.announcing total path number s) with
  | ok outcome s' => cases outcome <;> simp [hh] at h
  | error e' s' =>
    rw [hh] at h hhush
    cases h
    obtain ⟨hheaders, hcomplaints⟩ := hhush
    simp only [after, headers_announcing, complaints_announcing] at hheaders hcomplaints
    refine ⟨?_, hheaders, hcomplaints⟩
    cases hk : i.settings.kindOf path with
    | precompiled => rfl
    | source =>
      rw [hk, handle_source] at hh
      split at hh <;> cases hh
    | ignored =>
      rw [hk] at hh
      cases hh

/-! ## A run -/

/-- Between two turns the files that have had theirs are told of, and what went wrong with them. -/
theorem told_of_reaches (ht : i.compiler.Terse) (h : i.Reaches total items s entries rest t) :
    ∃ handled, items = handled ++ rest ∧
      t.headers = s.headers ++ (i.modulesAmong handled).map (headerOf total) ∧
      t.complaints = s.complaints ++ complaintsOf entries ∧
      entries.map Prod.fst = (i.modulesAmong handled).map (listedName ·.1) := by
  induction h with
  | start => exact ⟨[], rfl, (List.append_nil _).symm, (List.append_nil _).symm, rfl⟩
  | @turn entries path number rest entry t t' _ hl ih =>
    obtain ⟨handled, hitems, hheaders, hcomplaints, hnames⟩ := ih
    obtain ⟨hheaders', hcomplaints', hnames'⟩ := told_of_turn ht hl
    refine ⟨handled ++ [(path, number)], by rw [hitems, List.append_assoc]; rfl, ?_, ?_, ?_⟩
    · rw [hheaders', hheaders, modulesAmong_append, List.map_append, List.append_assoc]
    · rw [hcomplaints', hcomplaints, complaintsOf_append, List.append_assoc]
    · rw [modulesAmong_append, List.map_append, List.map_append, hnames, hnames']

/-- The headers are those of the given names, each with the place of a file of that name among the
listed ones. -/
structure Headed (paths : List Path) (names : List String) (headers : List Header) : Prop where
  names : headers.map Header.name = names
  total : ∀ h ∈ headers, h.total = paths.length
  bounds : ∀ h ∈ headers, 1 ≤ h.number ∧ h.number ≤ paths.length
  placed : ∀ h ∈ headers, (paths[h.number - 1]?).map listedName = some h.name
  increasing : (headers.map Header.number).Pairwise (· < ·)

theorem headed_of_prefix (i : Installer) (h : handled <+: paths.zipIdx 1) :
    Headed paths ((i.modulesAmong handled).map (listedName ·.1))
      ((i.modulesAmong handled).map (headerOf paths.length)) := by
  have hsub : (i.modulesAmong handled).Sublist (paths.zipIdx 1) :=
    List.filter_sublist.trans h.sublist
  have hplace : ∀ header ∈ (i.modulesAmong handled).map (headerOf paths.length),
      ∃ path, header = headerOf paths.length (path, header.number) ∧ 1 ≤ header.number ∧
        paths[header.number - 1]? = some path := by
    intro header hm
    obtain ⟨⟨path, number⟩, hitem, rfl⟩ := List.mem_map.1 hm
    exact ⟨path, rfl, List.mk_mem_zipIdx_iff_le_and_getElem?_sub.1 (hsub.subset hitem)⟩
  constructor
  case names => simp [headerOf]
  case total =>
    intro header hm
    obtain ⟨path, heq, -⟩ := hplace header hm
    rw [heq]
    rfl
  case bounds =>
    intro header hm
    obtain ⟨path, -, hone, hget⟩ := hplace header hm
    obtain ⟨hlt, -⟩ := List.getElem?_eq_some_iff.1 hget
    omega
  case placed =>
    intro header hm
    obtain ⟨path, heq, -, hget⟩ := hplace header hm
    rw [hget, heq]
    rfl
  case increasing =>
    have hnumbers := hsub.map Prod.snd
    rw [List.zipIdx_map_snd] at hnumbers
    simpa [headerOf, Function.comp_def] using
      (List.pairwise_lt_range' 1).sublist hnumbers

/-- The session has told of the modules of these names among the listed files, and of the failures
among the entries. -/
structure Tells (paths : List Path) (names : List String) (entries : List (String × Outcome))
    (s : Session) : Prop where
  headed : Headed paths names s.headers
  complaints : s.complaints = complaintsOf entries

theorem told_of_provision (ht : i.compiler.Terse) {s₁ : Session} (h : i.provision s = .ok () s₁) :
    s₁.headers = s.headers ∧ s₁.complaints = s.complaints := by
  have hhush := (allowsHandling_hushed ht).relates_provision s
  rw [h] at hhush
  exact ⟨hhush.headers, hhush.complaints⟩

theorem told_of_runs (ht : i.compiler.Terse) (hh : s.headers = []) (hc : s.complaints = [])
    (h : i.Runs dir s paths entries rest t) :
    ∃ handled, paths.zipIdx 1 = handled ++ rest ∧
      t.headers = (i.modulesAmong handled).map (headerOf paths.length) ∧
      t.complaints = complaintsOf entries ∧
      entries.map Prod.fst = (i.modulesAmong handled).map (listedName ·.1) := by
  obtain ⟨s₁, hp, -, hr⟩ := h
  obtain ⟨handled, hitems, hheaders, hcomplaints, hnames⟩ := told_of_reaches ht hr
  obtain ⟨hh₁, hc₁⟩ := told_of_provision ht hp
  exact ⟨handled, hitems, by rw [hheaders, hh₁, hh, List.nil_append],
    by rw [hcomplaints, hc₁, hc, List.nil_append], hnames⟩

theorem tells_of_runs (ht : i.compiler.Terse) (hh : s.headers = []) (hc : s.complaints = [])
    (h : i.Runs dir s paths entries rest t) : Tells paths (entries.map Prod.fst) entries t := by
  obtain ⟨handled, hitems, hheaders, hcomplaints, hnames⟩ := told_of_runs ht hh hc h
  refine ⟨?_, hcomplaints⟩
  rw [hheaders, hnames]
  exact i.headed_of_prefix ⟨rest, hitems.symm⟩

theorem tells_of_last_turn (ht : i.compiler.Terse) (hh : s.headers = []) (hc : s.complaints = [])
    (h : i.Runs dir s paths entries ((path, number) :: rest) t) {t' : Session}
    (hl : i.handleListed paths.length path number t = .error e t') :
    i.settings.kindOf path = .precompiled ∧
      Tells paths (entries.map Prod.fst ++ [listedName path]) entries t' := by
  obtain ⟨handled, hitems, hheaders, hcomplaints, hnames⟩ := told_of_runs ht hh hc h
  obtain ⟨hk, hheaders', hcomplaints'⟩ := told_of_last_turn ht hl
  have hmodule : i.modulesAmong [(path, number)] = [(path, number)] :=
    modulesAmong_cons (by simp [hk])
  refine ⟨hk, ?_, hcomplaints'.trans hcomplaints⟩
  rw [hheaders', hheaders, hnames, ← List.map_append, ← modulesAmong_append]
  have hlast : [listedName path] = (i.modulesAmong [(path, number)]).map (listedName ·.1) := by
    rw [hmodule]
    rfl
  rw [hlast, ← List.map_append, ← modulesAmong_append]
  exact i.headed_of_prefix ⟨rest, by rw [hitems, List.append_assoc]; rfl⟩

end Installer

end ModuleInstall
