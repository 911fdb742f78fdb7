import ModuleInstall.Proofs.Linkless
import ModuleInstall.Proofs.Sample

/-! # Spellings of a directory -/

namespace ModuleInstall

open FileSystem
open Bytes (slash dot)

variable {fs fs' : FileSystem} {last : LastLink} {here loc : Location} {p q : Path} {x : Bytes}
  {k : Nat} {content : Bytes}

/-! ## Two spellings -/

/-- The limit on the length of a path does not tell the paths apart. -/
def Path.SameReach (p q : Path) : Prop :=
  Route.maxLength ≤ p.bytes.length ↔ Route.maxLength ≤ q.bytes.length

namespace FileSystem

/-- Every walk of the one path is one of the other. -/
def SameWay (fs : FileSystem) (here : Location) (p q : Path) : Prop :=
  ∀ last, fs.walk last here p = fs.walk last here q

namespace SameWay

variable (h : fs.SameWay here p q)
include h

theorem isFile : fs.isFile here p = fs.isFile here q := by
  unfold FileSystem.isFile stat find
  rw [h]

theorem read : fs.read here p = fs.read here q := by
  unfold FileSystem.read stat find
  rw [h]

theorem remove : fs.remove here p = fs.remove here q := by
  unfold FileSystem.remove
  rw [h]

end SameWay

theorem sameWay_join (h : fs.Linkless) (hp : fs.directoryAt here p = .ok loc)
    (hq : fs.directoryAt here q = .ok loc) (hx : IsRelative x)
    (hreach : (p.join x).SameReach (q.join x)) : fs.SameWay here (p.join x) (q.join x) := by
  intro last
  obtain ⟨_, hwp, -, -⟩ := directoryAt_eq_ok_iff.1 hp
  obtain ⟨_, hwq, -, -⟩ := directoryAt_eq_ok_iff.1 hq
  obtain ⟨_, hrp, -⟩ := walk_eq_ok_iff.1 hwp
  obtain ⟨_, hrq, -⟩ := walk_eq_ok_iff.1 hwq
  have hjp := Path.route_join_eq hrp hx
  have hjq := Path.route_join_eq hrq hx
  have hfail : ∀ e, (p.join x).route = .error e → (q.join x).route = .error e →
      fs.walk last here (p.join x) = fs.walk last here (q.join x) := by
    intro e hep heq
    rw [walk, walk, hep, heq]
  by_cases h0 : (0 : UInt8) ∈ x
  · rw [if_pos h0] at hjp hjq
    exact hfail _ hjp hjq
  rw [if_neg h0] at hjp hjq
  by_cases hlong : Route.maxLength ≤ (p.join x).bytes.length
  · rw [if_pos hlong] at hjp
    rw [if_pos (hreach.1 hlong)] at hjq
    exact hfail _ hjp hjq
  · rw [if_neg hlong] at hjp
    rw [if_neg (mt hreach.2 hlong)] at hjq
    rw [walk_join h hp hx hjp, walk_join h hq hx hjq]

theorem read_join_of_silent (h : fs.Linkless) (hp : fs.directoryAt here p = .ok loc)
    (hx : IsRelative x)
    (hsilent : dropTrailing Path.silent ((pieces slash x).1 :: (pieces slash x).2) = []) :
    ∃ e, fs.read here (p.join x) = .error e := by
  obtain ⟨ps, heq, hall⟩ := exists_dropTrailing Path.silent
    ((pieces slash x).1 :: (pieces slash x).2)
  rw [hsilent, List.nil_append] at heq
  have hheres : ∀ step ∈ (Route.ofBytes x).steps, step = .here := by
    rw [Path.steps_ofBytes, heq]
    exact Path.stepsOf_silent hall
  cases hroute : (p.join x).route with
  | error e => exact ⟨e, by simp [read, stat, find, walk, hroute, Except.map]⟩
  | ok route =>
    obtain ⟨_, hwp, -, hdir⟩ := directoryAt_eq_ok_iff.1 hp
    obtain ⟨_, hrp, -⟩ := walk_eq_ok_iff.1 hwp
    obtain ⟨fixed, hd⟩ := hdir
    have hw : fs.walk .followed here (p.join x) = .ok (.directory loc) := by
      rw [walk_join h hp hx hroute,
        walk_of_route (Path.route_of_join (Path.route_eq_ok hrp).1 hx hroute),
        walkFrom_of_ends (stretch_heres fs hheres _ _ _), Path.fromRoot_of_relative hx]
      rfl
    have hst : fs.stat here (p.join x) = .ok (.directory fixed) :=
      stat_eq_ok_iff.2 ⟨_, hw, nodeAt_eq_ok_iff.2 ⟨hd, by simp⟩⟩
    exact ⟨.code .isDirectory, by rw [read, hst]⟩

end FileSystem

/-! ## Longer spellings -/

theorem Path.ofBytes_here (hx : IsRelative x) :
    Route.ofBytes (dot :: slash :: x) =
      { fromRoot := false
        steps := .here :: (Route.ofBytes x).steps
        slash := (Route.ofBytes x).slash } :=
  Path.ofBytes_append [dot] hx

theorem walk_here (hx : IsRelative x) (hlen : x.length + 2 < Route.maxLength) :
    fs.walk last here ⟨dot :: slash :: x⟩ = fs.walk last here ⟨x⟩ := by
  by_cases h0 : (0 : UInt8) ∈ x
  · have hnul : (0 : UInt8) ∈ dot :: slash :: x := by simp [h0]
    rw [walk, walk, Path.route, Path.route, if_pos h0, if_pos hnul]
  have hshort : ∀ y : Bytes, y ≠ [] → (0 : UInt8) ∉ y → y.length < Route.maxLength →
      (Path.mk y).route = .ok (.ofBytes y) := by
    intro y hne hnul hy
    rw [Path.route, if_neg hnul, if_neg hne, if_neg (Nat.not_le.2 hy)]
  have hnul : (0 : UInt8) ∉ dot :: slash :: x := by
    simp only [List.mem_cons, not_or]
    exact ⟨by decide, by decide, h0⟩
  rw [walk_of_route (hshort _ (by simp) hnul (by simpa using hlen)),
    walk_of_route (hshort x hx.ne_nil h0 (by omega)), Path.ofBytes_here hx,
    Path.fromRoot_of_relative hx]
  have hsame : fs.stretch last (Route.ofBytes x).slash here (.here :: (Route.ofBytes x).steps) =
      fs.stretch last (Route.ofBytes x).slash here (Route.ofBytes x).steps := rfl
  simp only [Bool.false_eq_true, if_false, walkFrom_of_stretch_eq hsame]

/-- A path with a number of dots in front. -/
def dotted : Nat → Bytes → Bytes
  | 0, x => x
  | k + 1, x => dot :: slash :: dotted k x

theorem length_dotted (k : Nat) (x : Bytes) : (dotted k x).length = 2 * k + x.length := by
  induction k with
  | zero => simp [dotted]
  | succ k ih =>
    simp only [dotted, List.length_cons, ih]
    omega

theorem isRelative_dotted (hx : IsRelative x) : IsRelative (dotted k x) := by
  cases k with
  | zero => exact hx
  | succ k => exact ⟨by simp [dotted], by simp [dotted, dot, slash]⟩

theorem join_dotted (k : Nat) (hx : IsRelative x) :
    (Path.mk (dotted k [dot])).join x = ⟨dotted (k + 1) x⟩ := by
  have hlast : (dotted k [dot]).getLast? = some dot := by
    induction k with
    | zero => rfl
    | succ k ih => simp [dotted, List.getLast?_cons, ih]
  have hbytes : dotted k [dot] ++ slash :: x = dotted (k + 1) x := by
    clear hlast
    induction k with
    | zero => rfl
    | succ k ih => rw [dotted, List.cons_append, List.cons_append, ih, ← dotted]
  have hne : dotted k [dot] ≠ [] := by
    intro he
    simp [he] at hlast
  have hopen : ¬ (dotted k [dot] = [] ∨ (dotted k [dot]).getLast? = some slash) := by
    rw [hlast]
    exact not_or.2 ⟨hne, by decide⟩
  rw [Path.join, hx.isAbsolute_eq, if_neg (by simp), if_neg hopen, hbytes]

theorem walk_dotted (hx : IsRelative x) (hlen : 2 * k + x.length < Route.maxLength) :
    fs.walk last here ⟨dotted k x⟩ = fs.walk last here ⟨x⟩ := by
  induction k with
  | zero => rfl
  | succ k ih =>
    rw [dotted, walk_here (isRelative_dotted hx) (by rw [length_dotted]; omega), ih (by omega)]

theorem directoryAt_dotted (hx : IsRelative x) (hlen : 2 * k + x.length < Route.maxLength) :
    fs.directoryAt here ⟨dotted k x⟩ = fs.directoryAt here ⟨x⟩ := by
  unfold directoryAt find
  rw [walk_dotted hx hlen]

end ModuleInstall
