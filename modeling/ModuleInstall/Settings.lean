import ModuleInstall.Path.Basic

/-! # Settings -/

namespace ModuleInstall

/-- The settings of an installation. The three extensions are parts of file names, and so bytes. -/
structure Settings where
  /-- The directory that the install tree stands in. -/
  home : Path
  /-- The program that compiles a source module. -/
  compiler : String := "javac"
  /-- The language level that the compiler is asked for. -/
  release : String := "17"
  /-- Where the compiler finds the runtime classes. -/
  classpath : String := "../out/production/jil/"
  /-- The extension of a module that goes through the compiler. -/
  sourceExt : Bytes := Utf8.encode "java"
  /-- The extension that the compiler gives its artifacts. -/
  compiledExt : Bytes := Utf8.encode "class"
  /-- The extension of a module that is copied as it is. -/
  precompiledExt : Bytes := Utf8.encode "jil"
  deriving DecidableEq, Repr

end ModuleInstall
