import Eliot.Collections.DepthFirst
import Eliot.Collections.Fallible
import Eliot.Text.Basic

namespace Atlas

open List
open DepthFirst (Edge searchAll searchAll_none)

section

inductive NavigationErrorCode where
  | artifactInvalid
  | limitExceeded
deriving DecidableEq

structure NavigationError where
  code : NavigationErrorCode
  message : Text
deriving DecidableEq

def fail {Value : Type} (code : NavigationErrorCode) (message : String) : Except NavigationError Value :=
  .error ⟨code, text message⟩

def maxAtlasNodes : Nat := 4096
def maxNodeReferences : Nat := 512

structure VersionedRef where
  id : Text
  revision : Nat

def versionedRefKey (value : VersionedRef) : Text := value.id ++ text "@" ++ Text.decimal value.revision

inductive NodeKind where
  | project | topic | sourceFamily | version | period | gap | readingRoute
deriving DecidableEq

variable {Annotations : Type}

structure AtlasNode (Annotations : Type) where
  nodeId : Text
  kind : NodeKind
  sourceCardRefs : List VersionedRef
  childNodeIds : List Text
  annotations : Annotations

structure Metadata (Annotations : Type) where
  assertNoEvidenceAuthority : Annotations → Except NavigationError Unit
  navigationAuthority : Annotations → Option Text

variable (metadata : Metadata Annotations)

def checkNode (node : AtlasNode Annotations) : Except NavigationError Unit := do
  if node.sourceCardRefs.length > maxNodeReferences ∨ node.childNodeIds.length > maxNodeReferences then
    fail .limitExceeded "ProjectAtlas node exceeds its reference ceiling"
  if ¬ (node.sourceCardRefs.map versionedRefKey).Nodup ∨ ¬ node.childNodeIds.Nodup then
    fail .artifactInvalid "ProjectAtlas node repeats a reference"
  metadata.assertNoEvidenceAuthority node.annotations
  if metadata.navigationAuthority node.annotations ≠ some (text "NAVIGATION_ONLY") then
    fail .artifactInvalid "ProjectAtlas node is not marked navigation-only"

def checkNodes (nodeIds : List Text) (projectNodes : Nat) : List (AtlasNode Annotations) → Except NavigationError Nat
  | [] => .ok projectNodes
  | node :: nodes =>
    if nodeIds.contains node.nodeId then fail .artifactInvalid "ProjectAtlas repeats a node_id"
    else do
      checkNode metadata node
      checkNodes (node.nodeId :: nodeIds) (if node.kind = .project then projectNodes + 1 else projectNodes) nodes

def byId (nodes : List (AtlasNode Annotations)) (id : Text) : Option (AtlasNode Annotations) :=
  nodes.reverse.find? (·.nodeId == id)

def children (nodes : List (AtlasNode Annotations)) (id : Text) : List Text :=
  ((byId nodes id).map (·.childNodeIds)).getD []

theorem children_unknown (nodes : List (AtlasNode Annotations)) (id : Text) (unknown : id ∉ nodes.map (·.nodeId)) :
    children nodes id = [] := by
  have none : byId nodes id = none := by
    refine find?_eq_none.mpr ?_
    intro node member same
    exact unknown (mem_map.mpr ⟨node, mem_reverse.mp member, beq_iff_eq.mp same⟩)
  rw [children, none]
  rfl

def childGraph (nodes : List (AtlasNode Annotations)) : DepthFirst.Graph Text :=
  ⟨nodes.map (·.nodeId), children nodes, children_unknown nodes⟩

def searchChildren (nodes : List (AtlasNode Annotations)) : Except NavigationError Unit :=
  match searchAll (childGraph nodes) (fun _ => none) (nodes.map (·.nodeId)) with
  | none => fail .artifactInvalid "ProjectAtlas contains a child cycle"
  | some _ => .ok ()

def checkAtlasNodes (nodes : List (AtlasNode Annotations)) : Except NavigationError Unit := do
  if nodes.length > maxAtlasNodes then fail .limitExceeded "ProjectAtlas nodes exceeds its item ceiling"
  let projectNodes ← checkNodes metadata [] 0 nodes
  if projectNodes ≠ 1 then fail .artifactInvalid "ProjectAtlas requires exactly one PROJECT root"
  if nodes.any fun node => node.childNodeIds.any fun child => !(nodes.map (·.nodeId)).contains child then
    fail .artifactInvalid "ProjectAtlas references an unknown child node"

def parseAtlasNodes (nodes : List (AtlasNode Annotations)) : Except NavigationError Unit := do
  checkAtlasNodes metadata nodes
  searchChildren nodes

end

section

variable {Annotations : Type} {nodes : List (AtlasNode Annotations)}

def HasChild (nodes : List (AtlasNode Annotations)) (id child : Text) : Prop :=
  ∃ node ∈ nodes, node.nodeId = id ∧ child ∈ node.childNodeIds

def childCycle : NavigationError := ⟨.artifactInvalid, text "ProjectAtlas contains a child cycle"⟩

theorem byId_some {id : Text} {node : AtlasNode Annotations} (found : byId nodes id = some node) :
    node ∈ nodes ∧ node.nodeId = id := by
  rw [byId] at found
  have passed := find?_some found
  exact ⟨mem_reverse.mp (mem_of_find?_eq_some found), beq_iff_eq.mp passed⟩

theorem byId_iff (distinct : (nodes.map (·.nodeId)).Nodup) {id : Text} {node : AtlasNode Annotations} :
    byId nodes id = some node ↔ node ∈ nodes ∧ node.nodeId = id := by
  constructor
  · exact byId_some
  · rintro ⟨member, rfl⟩
    cases found : byId nodes node.nodeId with
    | none =>
      have other := find?_eq_none.mp found node (mem_reverse.mpr member)
      simp at other
    | some first =>
      obtain ⟨listed, same⟩ := byId_some found
      rw [inj_on_of_nodup_map distinct listed member same]

theorem edge_iff (distinct : (nodes.map (·.nodeId)).Nodup) : Edge (childGraph nodes) = HasChild nodes := by
  funext id child
  refine propext ?_
  change child ∈ children nodes id ↔ _
  rw [children, HasChild]
  cases found : byId nodes id with
  | none =>
    refine iff_of_false (by simp) ?_
    rintro ⟨node, member, same, -⟩
    rw [(byId_iff distinct).mpr ⟨member, same⟩] at found
    cases found
  | some node =>
    obtain ⟨member, same⟩ := (byId_iff distinct).mp found
    constructor
    · intro listed
      exact ⟨node, member, same, listed⟩
    · rintro ⟨other, there, again, listed⟩
      rw [(byId_iff distinct).mpr ⟨there, again⟩] at found
      cases found
      exact listed

theorem searchChildren_cases (nodes : List (AtlasNode Annotations)) :
    searchChildren nodes = .ok () ∨ searchChildren nodes = .error childCycle := by
  rw [searchChildren]
  cases searchAll (childGraph nodes) (fun _ => none) (nodes.map (·.nodeId)) with
  | none => exact .inr rfl
  | some colors => exact .inl rfl

theorem searchChildren_cycle (distinct : (nodes.map (·.nodeId)).Nodup) : searchChildren nodes = .error childCycle ↔
    ∃ id, Relation.TransGen (HasChild nodes) id id := by
  have searched := searchAll_none (childGraph nodes)
  rw [edge_iff distinct] at searched
  rw [← searched, searchChildren]
  change _ ↔ searchAll (childGraph nodes) (fun _ => none) (nodes.map (·.nodeId)) = none
  cases searchAll (childGraph nodes) (fun _ => none) (nodes.map (·.nodeId)) with
  | none => exact iff_of_true rfl rfl
  | some colors => exact iff_of_false (by simp) (by simp)

/-- The search fails with a child cycle exactly when the child graph has one, and else it succeeds. -/
theorem searchChildren_exact (nodes : List (AtlasNode Annotations)) (distinct : (nodes.map (·.nodeId)).Nodup) :
    (searchChildren nodes = .error childCycle ↔ ∃ id, Relation.TransGen (HasChild nodes) id id) ∧
      (searchChildren nodes = .ok () ↔ ¬ ∃ id, Relation.TransGen (HasChild nodes) id id) := by
  have cycle := searchChildren_cycle distinct
  refine ⟨cycle, ?_⟩
  rw [← cycle]
  rcases searchChildren_cases nodes with accepted | refused
  · rw [accepted]
    simp
  · rw [refused]
    simp

def sharedChild : List (AtlasNode Unit) :=
  [⟨text "p", .project, [], [text "a", text "b"], ()⟩, ⟨text "a", .topic, [], [text "b"], ()⟩,
    ⟨text "b", .topic, [], [], ()⟩]

theorem sharedChild_exact :
    (searchChildren sharedChild = .error childCycle ↔ ∃ id, Relation.TransGen (HasChild sharedChild) id id) ∧
      (searchChildren sharedChild = .ok () ↔ ¬ ∃ id, Relation.TransGen (HasChild sharedChild) id id) :=
  searchChildren_exact sharedChild (by decide +kernel)

variable (metadata : Metadata Annotations)

theorem checkNodes_ok {nodeIds : List Text} {projectNodes count : Nat}
    (checked : checkNodes metadata nodeIds projectNodes nodes = .ok count) :
    (nodes.map (·.nodeId)).Nodup ∧ ∀ node ∈ nodes, node.nodeId ∉ nodeIds := by
  induction nodes generalizing nodeIds projectNodes with
  | nil => simp
  | cons node nodes ih =>
    rw [checkNodes] at checked
    by_cases repeated : nodeIds.contains node.nodeId = true
    · rw [if_pos repeated] at checked
      cases checked
    · rw [if_neg repeated] at checked
      obtain ⟨seen, -, rest⟩ := Fallible.bind_ok checked
      obtain ⟨distinct, apart⟩ := ih rest
      have fresh : node.nodeId ∉ nodeIds := fun member => repeated (contains_iff_mem.mpr member)
      rw [map_cons, nodup_cons, forall_mem_cons]
      refine ⟨⟨?_, distinct⟩, fresh, fun other member listed => apart other member (mem_cons_of_mem _ listed)⟩
      intro member
      obtain ⟨other, there, same⟩ := mem_map.mp member
      exact apart other there (same ▸ mem_cons_self)

/-- An accepted atlas is a graph over its own nodes without a way round. -/
theorem parseAtlasNodes_acyclic (accepted : parseAtlasNodes metadata nodes = .ok ()) :
    (nodes.map (·.nodeId)).Nodup ∧
      (∀ parent child, HasChild nodes parent child → child ∈ nodes.map (·.nodeId)) ∧
      ∀ id, ¬ Relation.TransGen (HasChild nodes) id id := by
  obtain ⟨_, before, searched⟩ := Fallible.bind_ok accepted
  rw [checkAtlasNodes] at before
  have short : ¬ nodes.length > maxAtlasNodes := by
    intro long
    rw [if_pos long] at before
    cases before
  rw [if_neg short] at before
  obtain ⟨count, counted, before⟩ := Fallible.bind_ok before
  have distinct := (checkNodes_ok metadata counted).1
  obtain ⟨-, before⟩ := Fallible.guard_ok before
  split_ifs at before with unknown
  · cases before
  refine ⟨distinct, ?_, ?_⟩
  · rintro parent child ⟨node, listed, -, named⟩
    by_contra absent
    exact unknown (any_eq_true.mpr ⟨node, listed, any_eq_true.mpr ⟨child, named, by simpa using absent⟩⟩)
  · intro id cycle
    rw [(searchChildren_cycle distinct).mpr ⟨id, cycle⟩] at searched
    cases searched

def annotated : Metadata Unit := ⟨fun _ => .ok (), fun _ => some (text "NAVIGATION_ONLY")⟩

theorem sharedChild_acyclic : (sharedChild.map (·.nodeId)).Nodup ∧
    (∀ parent child, HasChild sharedChild parent child → child ∈ sharedChild.map (·.nodeId)) ∧
    ∀ id, ¬ Relation.TransGen (HasChild sharedChild) id id :=
  parseAtlasNodes_acyclic annotated (by decide +kernel)

end

end Atlas
