import ModuleInstall.Compile.Compiler
import ModuleInstall.Rehearsal.Rule

/-! # A compiler that acts by rules -/

namespace ModuleInstall.Rehearsal

/-- How a compilation by rules ends. -/
inductive Verdict where
  | fail (program : String) (code : Option Int) (diagnostic : String)
  | notStarted (cause : SystemError)
  /-- It succeeds. The artifact is told to be where it is expected, if no other path is given. The
  source is copied there or not. -/
  | succeed (artifact : Option Path) (copy : Bool) (notes : List String)
  deriving DecidableEq, Repr

structure CompilerRule where
  cue : Cue := {}
  edits : Edits := {}
  verdict : Verdict := .succeed none true []
  deriving DecidableEq, Repr

/-- Comes to a verdict on a source. -/
def Verdict.compilation (v : Verdict) (s : Settings) (here : Location) (fs : FileSystem)
    (source : Path) : Compilation :=
  match v with
  | .fail program code diagnostic =>
    { result := .error (.failed program source code diagnostic), files := fs }
  | .notStarted cause => { result := .error (.notStarted s.compiler cause), files := fs }
  | .succeed artifact copy notes =>
    match artifact.elim (s.artifactPath source) .ok with
    | .error fault => { result := .error (.unnamable fault), files := fs }
    | .ok path =>
      let content := (fs.read here source).toOption.getD []
      { result := .ok { path, notes }
        files := if copy then fs.orSame (fs.write here path content) else fs }

/-- The first rule for a source. -/
def ruleFor (rules : List CompilerRule) (source : Path) : CompilerRule :=
  (rules.find? fun r => r.cue.isFor (source.fileName?.getD [])).getD {}

/-- The scene after a rule's edits beside a source. -/
def CompilerRule.sceneBeside (r : CompilerRule) (source : Path) (fs : FileSystem)
    (here : Location) : Scene × Location :=
  r.edits.apply fs here (source.parent?.getD ⟨[]⟩)

/-- The compiler that follows the first rule for a source. -/
def compiler (rules : List CompilerRule) (s : Settings) (here : Location) : Compiler :=
  fun fs source =>
    let rule := ruleFor rules source
    let (scene, here) := rule.sceneBeside source fs here
    rule.verdict.compilation s here scene.files source

end ModuleInstall.Rehearsal
