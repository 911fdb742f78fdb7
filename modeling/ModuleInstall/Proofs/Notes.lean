import ModuleInstall.Proofs.Decoding
import ModuleInstall.Proofs.Finishing
import ModuleInstall.Proofs.Paths
import ModuleInstall.Proofs.Sample

/-! # What a compiler says while it succeeds -/

namespace ModuleInstall

open Utf8

/-! ## Lines of bytes -/

/-- The bytes of a line without the carriage return at their end. -/
def withoutReturn (piece : Bytes) : Bytes :=
  if piece.getLast? = some 0x0D then piece.dropLast else piece

/-- The pieces between the line feeds of a stream. All but the last one stand in front of a line
feed, to which a carriage return before it belongs. -/
def linePieces (stream : Bytes) : List Bytes :=
  let all := (pieces 0x0A stream).1 :: (pieces 0x0A stream).2
  all.dropLast.map withoutReturn ++ all.getLast?.toList

/-- The texts of the lines of a stream that are not blank, each decoded on its own. -/
def lineNotes (stream : Bytes) : List String :=
  ((linePieces stream).filter fun piece => !(decode piece).all Text.isBlank).map toText

/-- Notes are taken line by line, and something can be seen of each. -/
structure LineWise (notesOf : Bytes → List String) : Prop where
  append : ∀ a b, notesOf (a ++ 0x0A :: b) = notesOf (a ++ [0x0A]) ++ notesOf b
  one_line : ∀ stream, ∀ note ∈ notesOf stream, '\n' ∉ note.toList
  visible : ∀ stream, ∀ note ∈ notesOf stream, ∃ c ∈ note.toList, Text.isBlank c = false

theorem linePieces_append (a b : Bytes) :
    linePieces (a ++ 0x0A :: b) =
      ((pieces 0x0A a).1 :: (pieces 0x0A a).2).map withoutReturn ++ linePieces b := by
  simp only [linePieces, pieces_append]
  rw [← List.cons_append, List.dropLast_append_of_ne_nil (by simp), List.map_append,
    List.append_assoc]
  simp [List.getLast?_append, List.getLast?_cons]

theorem mem_linePieces {stream piece : Bytes} (h : piece ∈ linePieces stream) :
    (0x0A : UInt8) ∉ piece := by
  obtain ⟨hfirst, hothers⟩ := not_mem_pieces (0x0A : UInt8) stream
  have hall : ∀ p ∈ (pieces 0x0A stream).1 :: (pieces 0x0A stream).2, (0x0A : UInt8) ∉ p := by
    simpa using And.intro hfirst hothers
  rcases List.mem_append.1 h with h | h
  · obtain ⟨p, hp, rfl⟩ := List.mem_map.1 h
    have hno := hall p ((List.dropLast_sublist _).subset hp)
    unfold withoutReturn
    split
    · exact fun hm => hno ((List.dropLast_sublist _).subset hm)
    · exact hno
  · exact hall piece (List.mem_of_getLast? (Option.mem_toList.1 h))

theorem lineNotes_append (a b : Bytes) :
    lineNotes (a ++ 0x0A :: b) = lineNotes (a ++ [0x0A]) ++ lineNotes b := by
  have hempty : lineNotes [] = [] := rfl
  have hcut : ∀ b, lineNotes (a ++ 0x0A :: b) =
      ((((pieces 0x0A a).1 :: (pieces 0x0A a).2).map withoutReturn).filter
        fun piece => !(decode piece).all Text.isBlank).map toText ++ lineNotes b := by
    intro b
    rw [lineNotes, linePieces_append, List.filter_append, List.map_append, lineNotes]
  rw [hcut b, hcut [], hempty, List.append_nil]

theorem not_mem_decode {b : UInt8} {c : Char} {bs : Bytes} (h : b ∉ bs)
    (hc : String.utf8EncodeChar c = [b]) (hne : c ≠ '\uFFFD') : c ∉ decode bs := by
  intro hm
  refine h ((decoded_decode bs).mem_of_mem hm hne b ?_)
  rw [hc]
  exact List.mem_singleton.2 rfl

theorem lineWise_lineNotes : LineWise lineNotes where
  append := lineNotes_append
  one_line stream note h := by
    obtain ⟨piece, hpiece, rfl⟩ := List.mem_map.1 h
    rw [toText, String.toList_ofList]
    exact not_mem_decode (mem_linePieces (List.mem_filter.1 hpiece).1) rfl (by decide)
  visible stream note h := by
    obtain ⟨piece, hpiece, rfl⟩ := List.mem_map.1 h
    have hseen := (List.mem_filter.1 hpiece).2
    rw [toText, String.toList_ofList]
    simpa using hseen

/-! ## Lines of a text -/

theorem decode_glue (first : Bytes) (others : List Bytes) :
    decode (glue 0x0A first others) = glue '\n' (decode first) (others.map decode) := by
  induction others generalizing first with
  | nil => simp [glue]
  | cons next others ih =>
    have hcons : ∀ {α : Type} (sep : α) (x y : List α) (ys : List (List α)),
        glue sep x (y :: ys) = x ++ sep :: glue sep y ys := by
      simp [glue]
    rw [hcons, decode_append_ascii _ (by decide), ih, List.map_cons, hcons]
    rfl

theorem pieces_decode (stream : Bytes) :
    pieces '\n' (decode stream) =
      (decode (pieces 0x0A stream).1, (pieces 0x0A stream).2.map decode) := by
  obtain ⟨hfirst, hothers⟩ := not_mem_pieces (0x0A : UInt8) stream
  have hno : ∀ piece : Bytes, (0x0A : UInt8) ∉ piece → '\n' ∉ decode piece :=
    fun piece h => not_mem_decode h rfl (by decide)
  rw [← glue_pieces 0x0A stream, decode_glue, glue_pieces]
  refine pieces_glue (hno _ hfirst) fun cs hcs => ?_
  obtain ⟨piece, hp, rfl⟩ := List.mem_map.1 hcs
  exact hno piece (hothers piece hp)

theorem dropReturn_decode (piece : Bytes) :
    Text.dropReturn (decode piece) = decode (withoutReturn piece) := by
  have hreturn : ∀ front : Bytes, decode (front ++ [0x0D]) = decode front ++ ['\r'] :=
    fun front => decode_append_ascii front (by decide) []
  unfold Text.dropReturn withoutReturn
  by_cases hend : piece.getLast? = some 0x0D
  · obtain ⟨front, rfl⟩ := List.getLast?_eq_some_iff.1 hend
    rw [hreturn]
    simp
  · rw [if_neg hend, if_neg]
    intro hlast
    cases hcut : splitAtLast (0x0D : UInt8) piece with
    | none =>
      have hno := splitAtLast_eq_none_iff.1 hcut
      exact not_mem_decode hno rfl (by decide) (List.mem_of_getLast? hlast)
    | some cut =>
      -- What is behind the last carriage return is not empty, and holds none when decoded.
      obtain ⟨rfl, hno⟩ := splitAtLast_eq_some hcut
      have hne : cut.2 ≠ [] := by
        intro hnil
        rw [hnil] at hend
        simp at hend
      have hne' : decode cut.2 ≠ [] := mt decode_eq_nil_iff.1 hne
      have hlast' : (decode cut.2).getLast hne' = '\r' := by
        rw [decode_append_ascii _ (by decide)] at hlast
        simpa [List.getLast?_append, List.getLast?_cons, List.getLast?_eq_some_getLast hne']
          using hlast
      exact not_mem_decode hno rfl (by decide) (hlast' ▸ List.getLast_mem hne')

theorem filter_linesOf_decode (first : Bytes) (others : List Bytes) :
    (Text.linesOf (decode first) (others.map decode)).filter (fun line => !line.all Text.isBlank) =
      (((first :: others).dropLast.map withoutReturn ++ (first :: others).getLast?.toList).filter
        fun piece => !(decode piece).all Text.isBlank).map decode := by
  induction others generalizing first with
  | nil =>
    by_cases hnil : decode first = []
    · simp [Text.linesOf, hnil]
    · by_cases hblank : (decode first).all Text.isBlank = true <;>
        simp [Text.linesOf, hnil, hblank]
  | cons next others ih =>
    rw [List.map_cons, Text.linesOf, dropReturn_decode, List.filter_cons, ih, List.dropLast_cons_cons,
      List.getLast?_cons_cons, List.map_cons, List.cons_append, List.filter_cons]
    split <;> rfl

/-- Each line of a stream can be decoded on its own. -/
theorem notesIn_eq_lineNotes (stream : Bytes) : notesIn stream = lineNotes stream := by
  rw [notesIn, Text.lines, pieces_decode, filter_linesOf_decode, lineNotes, linePieces,
    List.map_map]
  rfl

/-! ## Compilers -/

theorem Settings.exists_artifactPath_of_no_slash {s : Settings} (h : Bytes.slash ∉ s.compiledExt)
    (source : Path) : ∃ path, s.artifactPath source = .ok path := by
  unfold artifactPath
  split
  · exact ⟨_, rfl⟩
  · unfold Path.withExtension
    rw [if_neg h]
    dsimp only
    split <;> exact ⟨_, rfl⟩

namespace Machine

variable {m : Machine} {s : Settings} {here directory : Location} {fs : FileSystem} {source : Path}
  {launch : Launch}

theorem compiler_of_succeeded
    (hstart : m.start here (s.invocation source) fs = .ok (directory, launch))
    (hend : (launch.program directory launch.args fs).ending.succeeded = true) :
    let t := launch.program directory launch.args fs
    m.compiler s here fs source =
      { result :=
          match s.artifactPath source with
          | .ok path => .ok { path, notes := t.notes }
          | .error fault => .error (.unnamable fault)
        files := t.files
        events := .started directory launch.args ::
          (successRecords source t.notes).map Event.printed } := by
  intro t
  unfold compiler
  dsimp only
  rw [hstart]
  exact if_pos hend

theorem after_compile (c : Compiler) (source : Path) (t : Session) :
    Action.after (c.compile source t) =
      { files := (c t.files source).files
        events := t.events ++ .asked source :: (c t.files source).events } := by
  unfold Compiler.compile
  cases hr : (c t.files source).result <;> simp [hr, Action.after]

theorem text_successRecords (source : Path) (notes : List String) :
    Stream.text .output (successRecords source notes) =
        String.join (notes.map fun note => (Record.detail note).written) ++
          (Record.detail ("compiled " ++ source.shortName)).written ∧
      Stream.text .error (successRecords source notes) = "" := by
  have hall : ∀ r ∈ successRecords source notes, r.stream = .output := by
    intro r hr
    simp only [successRecords, List.mem_append, List.mem_map, List.mem_singleton] at hr
    rcases hr with ⟨note, -, rfl⟩ | rfl <;> rfl
  constructor
  · rw [Stream.text, List.filter_eq_self.2 fun r hr => by simp [hall r hr], successRecords,
      funext Record.text_eq_written, List.map_append, String.join_append]
    simp [String.join_cons, Function.comp_def]
  · rw [Stream.text, List.filter_eq_nil_iff.2 fun r hr => by simp [hall r hr]]
    rfl

/-- The notes on an artifact are the lines that the compiler has written to its output, and then
those that it has written to its error stream. They are printed as they are, and then the name of
the source. -/
theorem compiler_notes
    (hstart : m.start here (s.invocation source) fs = .ok (directory, launch))
    (hend : (launch.program directory launch.args fs).ending = .exit 0) :
    let t := launch.program directory launch.args fs
    let notes := lineNotes t.output ++ lineNotes t.errors
    let run := m.compiler s here fs source
    (Bytes.slash ∉ s.compiledExt → ∃ path, run.result = .ok { path, notes }) ∧
      (∀ artifact, run.result = .ok artifact → artifact.notes = notes) ∧
      printed run.events =
        notes.map Record.detail ++ [.detail ("compiled " ++ source.shortName)] ∧
      (∀ begun : Session, begun.files = fs →
        let ended := Action.after ((m.compiler s here).compile source begun)
        ended.text .output = begun.text .output ++
            (String.join (notes.map fun note => "     \x1b[2m" ++ note ++ "\x1b[0m\n") ++
              ("     \x1b[2m" ++ ("compiled " ++ source.shortName) ++ "\x1b[0m\n")) ∧
          ended.text .error = begun.text .error) ∧
      LineWise lineNotes ∧ ∀ piece cs, Decoded piece cs ↔ decode piece = cs := by
  intro t notes run
  have hnotes : t.notes = notes := by
    rw [Trace.notes, notesIn_eq_lineNotes, notesIn_eq_lineNotes]
  have hrun := compiler_of_succeeded hstart (by rw [hend]; rfl)
  change run = _ at hrun
  rw [show (launch.program directory launch.args fs).notes = notes from hnotes] at hrun
  refine ⟨fun hslash => ?_, fun artifact h => ?_, ?_, fun begun hbegun => ?_, lineWise_lineNotes,
    fun _ _ => decoded_iff⟩
  · obtain ⟨path, hpath⟩ := s.exists_artifactPath_of_no_slash hslash source
    exact ⟨path, by rw [hrun, hpath]⟩
  · rw [hrun] at h
    cases ha : s.artifactPath source <;> rw [ha] at h <;> cases h
    rfl
  · rw [hrun]
    exact printed_map _
  · obtain ⟨houtput, herror⟩ := text_successRecords source notes
    have hprinted : printed (.asked source :: run.events) = successRecords source notes := by
      rw [hrun]
      exact printed_map _
    rw [after_compile, hbegun]
    constructor
    · rw [Session.text_append, hprinted, houtput]
      rfl
    · rw [Session.text_append, hprinted, herror, String.append_empty]

end Machine

/-- A machine on which the program that compiles writes a line with a return at its end, a line that
breaks off within a character, one that is blank and one without an end. -/
def Sample.talker : Machine :=
  Rehearsal.machine [path "/bin"]
    [{ output := Utf8.encode "a\r\n" ++ [0xE2, 0x82] ++ Utf8.encode "\n \n b\r", errors := [0xFF] }]

theorem Machine.compiler_notes_talker :
    let s : Settings := { home := Sample.path "/home" }
    let source := Sample.path "/ww/A.java"
    let run := Sample.talker.compiler s [] Sample.rooted.files source
    let notes := ["a", "\uFFFD", " b\r", "\uFFFD"]
    (∃ path, run.result = .ok { path, notes }) ∧
      printed run.events = notes.map Record.detail ++ [.detail "compiled A.java"] ∧
      (Action.after ((Sample.talker.compiler s []).compile source Sample.rooted)).text .output =
        "     \x1b[2ma\x1b[0m\n     \x1b[2m\uFFFD\x1b[0m\n     \x1b[2m b\r\x1b[0m\n" ++
          "     \x1b[2m\uFFFD\x1b[0m\n     \x1b[2mcompiled A.java\x1b[0m\n" := by
  intro s source run notes
  have htrace : (Sample.talker.start [] (s.invocation source) Sample.rooted.files).toOption.map
      (fun x => (x.2.program x.1 x.2.args Sample.rooted.files).ending) = some (.exit 0) ∧
      (Sample.talker.start [] (s.invocation source) Sample.rooted.files).toOption.map
        (fun x => lineNotes (x.2.program x.1 x.2.args Sample.rooted.files).output ++
          lineNotes (x.2.program x.1 x.2.args Sample.rooted.files).errors) = some notes := by
    decide +kernel
  cases hstart : Sample.talker.start [] (s.invocation source) Sample.rooted.files with
  | error cause => simp [hstart, Except.toOption] at htrace
  | ok started =>
    obtain ⟨directory, launch⟩ := started
    simp only [hstart, Except.toOption, Option.map_some, Option.some.injEq] at htrace
    obtain ⟨hend, hnotes⟩ := htrace
    obtain ⟨hresult, -, hprinted, htext, -⟩ := compiler_notes hstart hend
    rw [hnotes] at hresult hprinted htext
    exact ⟨hresult (by decide), hprinted.trans (by decide +kernel),
      (htext Sample.rooted rfl).1.trans (by decide +kernel)⟩

end ModuleInstall
