import ModuleInstall.FileSystem.Basic

/-! # Changing one entry -/

namespace ModuleInstall

/-- The node with other content, if it is a file. -/
def Node.withContent (content : Bytes) : Node → Node
  | .file _ executable => .file content executable
  | other => other

@[simp] theorem Node.isDirectory_withContent (content : Bytes) (node : Node) :
    (node.withContent content).isDirectory = node.isDirectory := by
  cases node <;> rfl

namespace Nodes

theorem get?_append (nodes more : Nodes) (loc : Location) :
    (nodes ++ more).get? loc = (nodes.get? loc).or (more.get? loc) := by
  induction nodes with
  | nil => simp [get?]
  | cons e rest ih =>
    obtain ⟨k, v⟩ := e
    simp only [get?, List.cons_append, List.lookup_cons] at ih ⊢
    by_cases h : loc == k
    · simp [h]
    · simpa [h] using ih

theorem get?_eq_none_iff {nodes : Nodes} {loc : Location} :
    nodes.get? loc = none ↔ loc ∉ nodes.map Prod.fst := by
  simp only [get?, List.lookup_eq_none_iff, List.mem_map, not_exists, not_and, bne_iff_ne]
  exact ⟨fun h e he heq => h e he heq.symm, fun h e he heq => h e he heq.symm⟩

theorem get?_filter (nodes : Nodes) (keep : Location → Bool) (loc : Location) :
    Nodes.get? (nodes.filter fun e => keep e.1) loc = if keep loc then nodes.get? loc else none := by
  induction nodes with
  | nil => simp [get?]
  | cons e rest ih =>
    obtain ⟨k, v⟩ := e
    simp only [get?] at ih
    by_cases hk : keep k
    · simp only [get?, List.filter_cons, hk, if_true, List.lookup_cons]
      by_cases h : loc == k
      · have : loc = k := by simpa using h
        simp [this, hk]
      · simpa [h] using ih
    · have hk' : keep k = false := by simpa using hk
      by_cases h : loc == k
      · have : loc = k := by simpa using h
        subst this
        simpa [get?, List.filter_cons, hk'] using ih
      · simpa [get?, List.filter_cons, hk', List.lookup_cons, h] using ih

theorem get?_map (nodes : Nodes) (f : Location → Node → Node) (loc : Location) :
    Nodes.get? (nodes.map fun e => (e.1, f e.1 e.2)) loc = (nodes.get? loc).map (f loc) := by
  induction nodes with
  | nil => simp [get?]
  | cons e rest ih =>
    obtain ⟨k, v⟩ := e
    simp only [get?, List.map_cons, List.lookup_cons] at ih ⊢
    by_cases h : loc == k
    · have : loc = k := by simpa using h
      simp [this]
    · simpa [h] using ih

end Nodes

namespace FileSystem

theorem node?_cons (fs : FileSystem) (n : Name) (dir : Location) :
    fs.node? (n :: dir) = fs.nodes.get? (n :: dir) := rfl

/-! ## A new entry -/

/-- The directory can take a new entry of the given name. -/
def Admits (fs : FileSystem) (dir : Location) (n : Name) : Prop :=
  n.Proper ∧ fs.nodes.hasDirectory dir = true ∧ fs.node? (n :: dir) = none

instance (fs : FileSystem) (dir : Location) (n : Name) : Decidable (fs.Admits dir n) := by
  unfold Admits; infer_instance

theorem sound_add {fs : FileSystem} {dir : Location} {n : Name} (node : Node)
    (h : fs.Admits dir n) : Nodes.Sound (fs.nodes ++ [(n :: dir, node)]) := by
  obtain ⟨hn, hd, hfree⟩ := h
  have hfree' : (n :: dir) ∉ fs.nodes.map Prod.fst := Nodes.get?_eq_none_iff.1 hfree
  have grow : ∀ loc, fs.nodes.hasDirectory loc = true →
      Nodes.hasDirectory (fs.nodes ++ [(n :: dir, node)]) loc = true := by
    intro loc hl
    simp only [Nodes.hasDirectory, Bool.or_eq_true, Nodes.get?_append] at hl ⊢
    rcases hl with hl | hl
    · exact Or.inl hl
    · cases hg : fs.nodes.get? loc with
      | none => simp [hg] at hl
      | some x => exact Or.inr (by simpa [hg] using hl)
  refine ⟨?_, ?_, ?_⟩
  · rw [List.map_append, List.nodup_append]
    refine ⟨fs.sound.nodup, by simp, ?_⟩
    intro a ha b hb hab
    simp only [List.map_cons, List.map_nil, List.mem_singleton] at hb
    exact hfree' (hb ▸ hab ▸ ha)
  · intro e he
    rcases List.mem_append.1 he with he | he
    · exact fs.sound.proper e he
    · simp only [List.mem_singleton] at he
      subst he
      refine ⟨by simp, ?_⟩
      intro m hm
      rcases List.mem_cons.1 hm with rfl | hm
      · exact hn
      · cases dir with
        | nil => simp at hm
        | cons d up =>
          have : (fs.nodes.get? (d :: up)).any Node.isDirectory = true := by
            simpa [Nodes.hasDirectory] using hd
          cases hg : fs.nodes.get? (d :: up) with
          | none => simp [hg] at this
          | some x =>
            have hmem : (d :: up, x) ∈ fs.nodes := by
              have := List.lookup_eq_some_iff.1 hg
              obtain ⟨l₁, l₂, heq, _⟩ := this
              rw [heq]
              simp
            exact (fs.sound.proper _ hmem).2 m hm
  · intro e he
    rcases List.mem_append.1 he with he | he
    · exact grow _ (fs.sound.inDirectory e he)
    · simp only [List.mem_singleton] at he
      subst he
      exact grow _ hd

/-- Puts a new entry into a directory. -/
def add (fs : FileSystem) (dir : Location) (n : Name) (node : Node) : FileSystem :=
  if h : fs.Admits dir n then ⟨fs.nodes ++ [(n :: dir, node)], sound_add node h⟩ else fs

theorem node?_add {fs : FileSystem} {dir : Location} {n : Name} (node : Node)
    (h : fs.Admits dir n) (loc : Location) :
    (fs.add dir n node).node? loc = if loc = n :: dir then some node else fs.node? loc := by
  cases loc with
  | nil => simp [node?]
  | cons m up =>
    simp only [add, dif_pos h, node?_cons, Nodes.get?_append]
    have hnew : Nodes.get? [(n :: dir, node)] (m :: up) =
        if m :: up = n :: dir then some node else none := by
      by_cases hl : m :: up = n :: dir
      · rw [hl]; simp [Nodes.get?]
      · rw [if_neg hl]
        exact Nodes.get?_eq_none_iff.2 (by simpa using hl)
    rw [hnew]
    by_cases hl : m :: up = n :: dir
    · have hfree : fs.nodes.get? (n :: dir) = none := h.2.2
      rw [hl, hfree]; simp
    · simp [hl]

/-! ## Other content -/

theorem get?_map_withContent (fs : FileSystem) (spot : Location) (content : Bytes) (loc : Location) :
    Nodes.get? (fs.nodes.map fun e => (e.1, if e.1 = spot then e.2.withContent content else e.2)) loc =
      (fs.nodes.get? loc).map fun x => if loc = spot then x.withContent content else x :=
  Nodes.get?_map fs.nodes (fun l x => if l = spot then x.withContent content else x) loc

/-- Gives the file at a location other content. -/
def setContent (fs : FileSystem) (loc : Location) (content : Bytes) : FileSystem where
  nodes := fs.nodes.map fun e => (e.1, if e.1 = loc then e.2.withContent content else e.2)
  sound := by
    have same : ∀ l, Nodes.hasDirectory
        (fs.nodes.map fun e => (e.1, if e.1 = loc then e.2.withContent content else e.2)) l =
        fs.nodes.hasDirectory l := by
      intro l
      simp only [Nodes.hasDirectory, get?_map_withContent]
      cases fs.nodes.get? l with
      | none => rfl
      | some x => by_cases hl : l = loc <;> simp [hl]
    refine ⟨by simpa [Function.comp_def] using fs.sound.nodup, ?_, ?_⟩
    · intro e he
      obtain ⟨e', he', rfl⟩ := List.mem_map.1 he
      exact fs.sound.proper e' he'
    · intro e he
      obtain ⟨e', he', rfl⟩ := List.mem_map.1 he
      exact (same _).trans (fs.sound.inDirectory e' he')

theorem node?_setContent (fs : FileSystem) (spot : Location) (content : Bytes) (loc : Location) :
    (fs.setContent spot content).node? loc =
      (fs.node? loc).map fun x => if loc = spot then x.withContent content else x := by
  cases loc with
  | nil => by_cases h : [] = spot <;> simp [node?, h, Node.withContent]
  | cons n dir => exact get?_map_withContent fs spot content (n :: dir)

/-! ## An entry less -/

/-- Takes away what lies at a location, and everything below it. The root itself stays. -/
def erase (fs : FileSystem) (loc : Location) : FileSystem where
  nodes := fs.nodes.filter fun e => !loc.isSuffixOf e.1
  sound := by
    refine ⟨?_, ?_, ?_⟩
    · exact fs.sound.nodup.sublist (List.filter_sublist.map Prod.fst)
    · intro e he
      exact fs.sound.proper e (List.mem_filter.1 he).1
    · intro e he
      obtain ⟨he, hkeep⟩ := List.mem_filter.1 he
      have hdir := fs.sound.inDirectory e he
      have hup : loc.isSuffixOf e.1.tail = false := by
        cases h : loc.isSuffixOf e.1.tail with
        | false => rfl
        | true =>
          have : loc <:+ e.1 := (List.isSuffixOf_iff_suffix.1 h).trans (List.tail_suffix e.1)
          simp [List.isSuffixOf_iff_suffix.2 this] at hkeep
      simp only [Nodes.hasDirectory, Bool.or_eq_true,
        Nodes.get?_filter fs.nodes (fun l => !loc.isSuffixOf l)] at hdir ⊢
      simpa [hup] using hdir

theorem node?_erase (fs : FileSystem) (spot loc : Location) :
    (fs.erase spot).node? loc = if spot <:+ loc ∧ loc ≠ [] then none else fs.node? loc := by
  cases loc with
  | nil => simp [node?]
  | cons n dir =>
    simp only [node?_cons, erase, Nodes.get?_filter fs.nodes (fun l => !spot.isSuffixOf l)]
    by_cases h : spot <:+ n :: dir
    · simp [h, List.isSuffixOf_iff_suffix.2 h]
    · have : spot.isSuffixOf (n :: dir) = false := by
        cases hs : spot.isSuffixOf (n :: dir) with
        | false => rfl
        | true => exact absurd (List.isSuffixOf_iff_suffix.1 hs) h
      simp [h, this]

end FileSystem

end ModuleInstall
