import ModuleInstall.Failure
import ModuleInstall.Options.Parser
import ModuleInstall.Settings

/-! # Settings out of choices -/

namespace ModuleInstall

/-- The home directory of the user. -/
def userHome? (env : Variables) (accountHome : Option Path) : Option Path :=
  match env "HOME" with
  | some (b :: rest) => some ⟨b :: rest⟩
  | _ => accountHome

/-- The settings for a home directory, if there is one. -/
def Settings.at? (home : Option Path) : Except SettingsError Settings :=
  match home with
  | some home => .ok { home }
  | none => .error .noHome

namespace Choices

/-- The value that was chosen for a key. -/
def value? (c : Choices) (key : Key) : Option Bytes := c.lookup key

/-- The text that was chosen for a key, or another. -/
def textOr (c : Choices) (key : Key) (other : String) : String :=
  (c.value? key).elim other Utf8.toText

/-- The settings that the choices make. -/
def settings (c : Choices) (userHome : Option Path) : Except SettingsError Settings :=
  (Settings.at? (((c.value? .home).map Path.mk).or userHome)).map fun s =>
    { s with
      compiler := c.textOr .compiler s.compiler
      release := c.textOr .release s.release
      classpath := c.textOr .classpath s.classpath }

end Choices

end ModuleInstall
