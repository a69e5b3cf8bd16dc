import TerraStack.Proofs.Stack.ModuleBlocks

namespace TerraStack

variable {section_ : Yaml.Node} {before after : List (Yaml.Node × Yaml.Node)} {key node : Yaml.Node}
  {name : String}

/-- A mapping describes a module, and nothing else does. -/
theorem Module.isSome_ofNode? (name : String) (node : Yaml.Node) :
    (Module.ofNode? name node).isSome = node.isMapping := by
  rw [Module.ofNode?, Option.isSome_map, Yaml.Node.isMapping]

/-- What is no mapping describes no module. -/
theorem Module.ofNode?_eq_none (hnode : node.isMapping = false) (name : String) :
    Module.ofNode? name node = none := by
  rw [← Option.not_isSome_iff_eq_none, Module.isSome_ofNode?, hnode]
  exact Bool.false_ne_true

/-- The module that an entry of a section describes, under its name. -/
def namedModule? (entry : Yaml.Node × Yaml.Node) : Option (String × Module) :=
  (Module.ofNode? (Hcl.keyText entry.1) entry.2).map (Hcl.keyText entry.1, ·)

/-- The modules of a section are those of its entries, each under its name. One name may be that of
several entries, for keys of all kinds become names. -/
theorem modulesOfNode_eq (section_ : Yaml.Node) :
    modulesOfNode section_ = .ofList ((section_.entries?.getD []).filterMap namedModule?) := rfl

/-- An entry describes a module under the text of its key. -/
theorem namedModule?_eq_some_iff {entry : Yaml.Node × Yaml.Node} {module : Module} :
    namedModule? entry = some (name, module) ↔
      Hcl.keyText entry.1 = name ∧ Module.ofNode? name entry.2 = some module := by
  unfold namedModule?
  rw [Option.map_eq_some_iff]
  constructor
  · rintro ⟨described, hdescribed, heq⟩
    obtain ⟨rfl, rfl⟩ := Prod.mk.inj heq
    exact ⟨rfl, hdescribed⟩
  · rintro ⟨rfl, hdescribed⟩
    exact ⟨module, hdescribed, rfl⟩

/-- An entry whose value is no mapping describes none. -/
theorem namedModule?_eq_none (hnode : node.isMapping = false) : namedModule? (key, node) = none := by
  rw [namedModule?, Module.ofNode?_eq_none hnode, Option.map_none]

/-- The name of an entry is taken if the entry is a mapping. -/
theorem map_fst_namedModule? (entry : Yaml.Node × Yaml.Node) :
    (namedModule? entry).map Prod.fst =
      if entry.2.isMapping = true then some (Hcl.keyText entry.1) else none := by
  rw [← Module.isSome_ofNode? (Hcl.keyText entry.1), namedModule?]
  cases Module.ofNode? (Hcl.keyText entry.1) entry.2 with
  | none => rfl
  | some module => rfl

/-- The value of the last entry with some name that is a mapping. Entries behind it may have the
name, but are no mappings. -/
def IsLastMapping (entries : List (Yaml.Node × Yaml.Node)) (name : String) (node : Yaml.Node) : Prop :=
  ∃ before key after, entries = before ++ (key, node) :: after ∧ Hcl.keyText key = name ∧
    node.isMapping = true ∧ ∀ other ∈ after, Hcl.keyText other.1 = name → other.2.isMapping = false

/-- The modules are those of the section: what stands in it tells which there are, and how they are
described. -/
structure DeclaredIn (section_ : Yaml.Node) (modules : OrderedMap String Module) : Prop where
  keepsNames : KeepsNames modules
  /-- The names of the entries that are mappings, each where it comes first. -/
  keys_eq : modules.keys = (((section_.entries?.getD []).filter fun entry => entry.2.isMapping).map
    fun entry => Hcl.keyText entry.1).eraseDups
  find?_iff : ∀ name module, modules.find? name = some module ↔
    ∃ node, IsLastMapping (section_.entries?.getD []) name node ∧
      Module.ofNode? name node = some module
  /-- An entry that is no mapping could as well be left out, whatever its name is. -/
  skips : ∀ before key node after, section_.entries? = some (before ++ (key, node) :: after) →
    node.isMapping = false → modules = modulesOfNode (.mapping (before ++ after))
  eq_empty : section_.isMapping = false → modules = ∅

/-- The names come in the order of the first mappings under them. -/
theorem keys_modulesOfNode (section_ : Yaml.Node) :
    (modulesOfNode section_).keys =
      (((section_.entries?.getD []).filter fun entry => entry.2.isMapping).map
        fun entry => Hcl.keyText entry.1).eraseDups := by
  have hnames : ((section_.entries?.getD []).filterMap namedModule?).map Prod.fst =
      ((section_.entries?.getD []).filter fun entry => entry.2.isMapping).map
        fun entry => Hcl.keyText entry.1 := by
    rw [List.map_filterMap, ← List.filterMap_eq_map', List.filterMap_filter]
    exact List.filterMap_congr fun entry _ => map_fst_namedModule? entry
  rw [modulesOfNode_eq, OrderedMap.keys_ofList, hnames]

/-- Behind the entry that counts for a name no other mapping has that name. -/
theorem not_namedModule?_iff {entry : Yaml.Node × Yaml.Node} :
    (∀ hidden, namedModule? entry ≠ some (name, hidden)) ↔
      (Hcl.keyText entry.1 = name → entry.2.isMapping = false) := by
  rw [← Module.isSome_ofNode? name, ← Bool.not_eq_true, Option.isSome_iff_exists]
  constructor
  · rintro hnone hname ⟨hidden, hdescribed⟩
    exact hnone hidden (namedModule?_eq_some_iff.mpr ⟨hname, hdescribed⟩)
  · intro hnone hidden hnamed
    obtain ⟨hname, hdescribed⟩ := namedModule?_eq_some_iff.mp hnamed
    exact hnone hname ⟨hidden, hdescribed⟩

/-- The last mapping under a name describes the module. -/
theorem find?_modulesOfNode_iff (section_ : Yaml.Node) (name : String) (module : Module) :
    (modulesOfNode section_).find? name = some module ↔
      ∃ node, IsLastMapping (section_.entries?.getD []) name node ∧
        Module.ofNode? name node = some module := by
  rw [modulesOfNode_eq, OrderedMap.find?_ofList_filterMap]
  simp only [not_namedModule?_iff]
  constructor
  · rintro ⟨before, ⟨key, node⟩, after, hentries, hnamed, hafter⟩
    obtain ⟨hname, hdescribed⟩ := namedModule?_eq_some_iff.mp hnamed
    have hmapping : node.isMapping = true := by
      rw [← Module.isSome_ofNode? name, hdescribed, Option.isSome_some]
    exact ⟨node, ⟨before, key, after, hentries, hname, hmapping, hafter⟩, hdescribed⟩
  · rintro ⟨node, ⟨before, key, after, hentries, hname, -, hafter⟩, hdescribed⟩
    exact ⟨before, (key, node), after, hentries, namedModule?_eq_some_iff.mpr ⟨hname, hdescribed⟩,
      hafter⟩

/-- An entry that is no mapping might as well not be there. -/
theorem modulesOfNode_skips (hentries : section_.entries? = some (before ++ (key, node) :: after))
    (hnode : node.isMapping = false) :
    modulesOfNode section_ = modulesOfNode (.mapping (before ++ after)) := by
  have hleft : (Yaml.Node.mapping (before ++ after)).entries? = some (before ++ after) := rfl
  rw [modulesOfNode_eq, modulesOfNode_eq, hentries, hleft, Option.getD_some, Option.getD_some,
    List.filterMap_append, List.filterMap_append,
    List.filterMap_cons_none (namedModule?_eq_none hnode)]

/-- A section that is no mapping has no modules. -/
theorem modulesOfNode_eq_empty (hsection : section_.isMapping = false) : modulesOfNode section_ = ∅ := by
  have hnone : section_.entries? = none := by
    rw [Yaml.Node.isMapping] at hsection
    exact Option.not_isSome_iff_eq_none.mp (by simp [hsection])
  rw [modulesOfNode_eq, hnone]
  rfl

/-- Whatever stands where a section should be, its modules are those of its last mappings. -/
theorem modulesOfNode_declaredIn (section_ : Yaml.Node) :
    DeclaredIn section_ (modulesOfNode section_) where
  keepsNames := keepsNames_modulesOfNode section_
  keys_eq := keys_modulesOfNode section_
  find?_iff := find?_modulesOfNode_iff section_
  skips _ _ _ _ := modulesOfNode_skips
  eq_empty := modulesOfNode_eq_empty

/-- A section with a number and a string as keys that have the same text. -/
def mixedSection : Yaml.Node :=
  let described (address : String) : Yaml.Node := .mapping [(.string "source", .string address)]
  .tagged "!modules" (.mapping [(.string "web", .null), (.integer 1, described "./first"),
    (.bool true, .string "./true"), (.string "1", described "./second"),
    (.string "web", described "./web"), (.tagged "!x" (.integer 1), .sequence [])])

example : (modulesOfNode mixedSection).entries.map (fun entry => (entry.1, entry.2.source.address)) =
    [("1", "../second"), ("web", "../web")] := by
  decide

end TerraStack
