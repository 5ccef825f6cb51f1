import Mathlib.Logic.Function.Basic
import Mathlib.Logic.Relation

namespace DepthFirst

open List

structure Graph (Node : Type) where
  nodes : List Node
  children : Node → List Node
  bounded : ∀ node, node ∉ nodes → children node = []

inductive Color where
  | visiting
  | visited
deriving DecidableEq

structure Frame (Node : Type) where
  node : Node
  exit : Bool

def enter {Node : Type} (node : Node) : Frame Node := ⟨node, false⟩
def leave {Node : Type} (node : Node) : Frame Node := ⟨node, true⟩

def expand {Node : Type} (graph : Graph Node) (node : Node) (stack : List (Frame Node)) : List (Frame Node) :=
  (graph.children node).map enter ++ leave node :: stack

variable {Node : Type} [DecidableEq Node]

abbrev Colors (Node : Type) := Node → Option Color

def Colors.set (colors : Colors Node) (node : Node) (color : Color) : Colors Node :=
  Function.update colors node (some color)

section

def uncolored (graph : Graph Node) (colors : Colors Node) : List Node → Nat
  | [] => 0
  | node :: nodes =>
    (if colors node = none then 2 * (graph.children node).length else 0) + uncolored graph colors nodes

def load : List (Frame Node) → Nat
  | [] => 0
  | frame :: stack => (if frame.exit then 1 else 2) + load stack

variable (graph : Graph Node) {colors : Colors Node} {node : Node} (color : Color) {nodes : List Node}

theorem uncolored_le (colors : Colors Node) (node : Node) (color : Color) (nodes : List Node) : uncolored graph (colors.set node color) nodes ≤ uncolored graph colors nodes := by
  induction nodes with
  | nil => exact Nat.le_refl 0
  | cons other nodes ih =>
    have here : colors.set node color other = none → colors other = none := by
      intro fresh
      by_cases same : other = node
      · subst same
        simp [Colors.set] at fresh
      · rwa [Colors.set, Function.update_of_ne same] at fresh
    rw [uncolored, uncolored]
    by_cases fresh : colors.set node color other = none
    · rw [if_pos fresh, if_pos (here fresh)]
      omega
    · rw [if_neg fresh]
      omega

theorem uncolored_enter (fresh : colors node = none) (member : node ∈ nodes) :
    uncolored graph (colors.set node color) nodes + 2 * (graph.children node).length ≤ uncolored graph colors nodes := by
  induction nodes with
  | nil => cases member
  | cons other nodes ih =>
    rw [uncolored, uncolored]
    rcases mem_cons.mp member with rfl | later
    · have rest := uncolored_le graph colors node color nodes
      have colored : ¬ colors.set node color node = none := by simp [Colors.set]
      rw [if_neg colored, if_pos fresh]
      omega
    · have rest := ih later
      have here := uncolored_le graph colors node color [other]
      simp only [uncolored, Nat.add_zero] at here
      omega

omit [DecidableEq Node] in
theorem load_enter (nodes : List Node) (stack : List (Frame Node)) :
    load (nodes.map enter ++ stack) = 2 * nodes.length + load stack := by
  induction nodes with
  | nil => simp
  | cons node nodes ih =>
    rw [map_cons, cons_append, load, ih, enter, length_cons]
    simp only [Bool.false_eq_true, if_false]
    omega

theorem measure_enter {graph : Graph Node} (fresh : colors node = none) (stack : List (Frame Node)) :
    uncolored graph (colors.set node .visiting) graph.nodes + load (expand graph node stack) <
      uncolored graph colors graph.nodes + load (enter node :: stack) := by
  rw [expand, load_enter, load, load, leave, enter]
  simp only [Bool.false_eq_true, if_false, if_true]
  by_cases member : node ∈ graph.nodes
  · have fewer := uncolored_enter graph .visiting fresh member
    omega
  · have none := graph.bounded node member
    have fewer := uncolored_le graph colors node .visiting graph.nodes
    rw [none, length_nil]
    omega

end

section

variable (graph : Graph Node)

def search (colors : Colors Node) : List (Frame Node) → Option (Colors Node)
  | [] => some colors
  | ⟨node, true⟩ :: stack => search (colors.set node .visited) stack
  | ⟨node, false⟩ :: stack =>
    match _seen : colors node with
    | some .visiting => none
    | some .visited => search colors stack
    | none => search (colors.set node .visiting) (expand graph node stack)
termination_by stack => uncolored graph colors graph.nodes + load stack
decreasing_by
  · have fewer := uncolored_le graph colors node .visited graph.nodes
    simp only [load, if_true]
    omega
  · simp only [load, Bool.false_eq_true, if_false]
    omega
  · exact measure_enter _seen stack

def searchAll (colors : Colors Node) : List Node → Option (Colors Node)
  | [] => some colors
  | root :: roots =>
    if colors root = some .visited then searchAll colors roots
    else match search graph colors [enter root] with
      | none => none
      | some colors => searchAll colors roots

end

section

variable (graph : Graph Node)

def Edge (node child : Node) : Prop := child ∈ graph.children node

def Finished : List Node → Prop
  | [] => True
  | node :: done => node ∉ done ∧ (∀ child ∈ graph.children node, child ∈ done) ∧ Finished done

/-- A stack over the path of the nodes that are being visited. What is pending above a node of the path is children
    of it, and its children are done, pending or on the path right above it. -/
inductive Stacked (done : List Node) : Option Node → List Node → List (Frame Node) → Prop where
  | roots (above : Option Node) (pending : List Node) : Stacked done above [] (pending.map enter)
  | visits {path : List Node} {stack : List (Frame Node)} (above : Option Node) (node : Node) (pending : List Node)
      (below : Stacked done (some node) path stack)
      (edge : ∀ parent ∈ path.head?, Edge graph parent node)
      (kids : ∀ child ∈ pending, Edge graph node child)
      (known : ∀ child ∈ graph.children node, child ∈ done ∨ child ∈ pending ∨ above = some child) :
      Stacked done above (node :: path) (pending.map enter ++ leave node :: stack)

variable {graph} {done path : List Node} {above : Option Node} {node : Node} {stack : List (Frame Node)}
  {colors : Colors Node}

omit [DecidableEq Node] in
theorem Finished.closed (finished : Finished graph done) {child : Node} (member : node ∈ done)
    (edge : Edge graph node child) : child ∈ done := by
  induction done with
  | nil => cases member
  | cons last done ih =>
    obtain ⟨-, children, earlier⟩ := finished
    rcases mem_cons.mp member with rfl | member
    · exact mem_cons_of_mem _ (children child edge)
    · exact mem_cons_of_mem _ (ih earlier member)

omit [DecidableEq Node] in
theorem Finished.reaches (finished : Finished graph done) {last : Node} (member : node ∈ done)
    (reach : Relation.TransGen (Edge graph) node last) : last ∈ done := by
  induction reach with
  | single edge => exact finished.closed member edge
  | tail _ edge ih => exact finished.closed ih edge

omit [DecidableEq Node] in
theorem Finished.acyclic (finished : Finished graph done) (member : node ∈ done) :
    ¬ Relation.TransGen (Edge graph) node node := by
  induction done with
  | nil => cases member
  | cons last done ih =>
    obtain ⟨fresh, children, earlier⟩ := finished
    rcases mem_cons.mp member with rfl | member
    · intro cycle
      obtain ⟨child, edge, back⟩ := Relation.TransGen.head'_iff.mp cycle
      have below := children child edge
      rcases Relation.reflTransGen_iff_eq_or_transGen.mp back with same | reach
      · exact fresh (same ▸ below)
      · exact fresh (Finished.reaches earlier below reach)
    · exact ih earlier member

omit [DecidableEq Node] in
theorem Stacked.pop (stacked : Stacked graph done none path (enter node :: stack)) (above : Option Node)
    (found : node ∈ done ∨ above = some node) :
    Stacked graph done above path stack ∧ ∀ parent ∈ path.head?, Edge graph parent node := by
  generalize whole : enter node :: stack = frames at stacked
  cases stacked with
  | roots _ pending =>
    cases pending with
    | nil => cases whole
    | cons first pending =>
      rw [map_cons, List.cons.injEq] at whole
      rw [whole.2]
      exact ⟨.roots above pending, by simp⟩
  | visits _ owner pending below edge kids known =>
    cases pending with
    | nil => cases whole
    | cons first pending =>
      rw [map_cons, cons_append, List.cons.injEq] at whole
      obtain ⟨same, rfl⟩ := whole
      obtain rfl : node = first := (Frame.mk.inj same).1
      refine ⟨.visits above owner pending below edge (fun child member => kids child (mem_cons_of_mem _ member)) ?_,
        ?_⟩
      · intro child member
        rcases known child member with finished | waiting | impossible
        · exact .inl finished
        · rcases mem_cons.mp waiting with rfl | waiting
          · exact found.imp_right .inr
          · exact .inr (.inl waiting)
        · cases impossible
      · intro parent member
        cases member
        exact kids node mem_cons_self

omit [DecidableEq Node] in
theorem Stacked.mono {more : List Node} (stacked : Stacked graph done above path stack)
    (sub : ∀ node ∈ done, node ∈ more) : Stacked graph more above path stack := by
  induction stacked with
  | roots above pending => exact .roots above pending
  | visits above node pending below edge kids known ih =>
    refine .visits above node pending ih edge kids ?_
    intro child member
    exact (known child member).imp_left (sub child)

omit [DecidableEq Node] in
theorem Stacked.settle (stacked : Stacked graph done above path stack) (settled : ∀ node ∈ above, node ∈ done) :
    Stacked graph done none path stack := by
  cases stacked with
  | roots _ pending => exact .roots none pending
  | visits _ node pending below edge kids known =>
    refine .visits none node pending below edge kids ?_
    intro child member
    rcases known child member with finished | waiting | same
    · exact .inl finished
    · exact .inr (.inl waiting)
    · exact .inl (settled child same)

omit [DecidableEq Node] in
theorem Stacked.leave (stacked : Stacked graph done none path (leave node :: stack)) :
    ∃ rest, path = node :: rest ∧ Stacked graph (node :: done) none rest stack ∧
      ∀ child ∈ graph.children node, child ∈ done := by
  generalize whole : DepthFirst.leave node :: stack = frames at stacked
  cases stacked with
  | roots _ pending => cases pending <;> cases whole
  | visits _ owner pending below edge kids known =>
    cases pending with
    | cons first pending => cases whole
    | nil =>
      rw [map_nil, nil_append, List.cons.injEq] at whole
      obtain ⟨same, rfl⟩ := whole
      obtain rfl : node = owner := (Frame.mk.inj same).1
      refine ⟨_, rfl, (below.mono fun other member => mem_cons_of_mem _ member).settle (by simp), ?_⟩
      intro child member
      simpa using known child member

omit [DecidableEq Node] in
theorem Stacked.reaches (stacked : Stacked graph done above path stack) {top : Node} (head : top ∈ path.head?)
    (member : node ∈ path) : Relation.ReflTransGen (Edge graph) node top := by
  induction stacked generalizing top with
  | roots above pending => cases member
  | visits above owner pending below edge kids known ih =>
    obtain rfl : owner = top := by simpa using head
    rcases mem_cons.mp member with rfl | deeper
    · exact .refl
    · rename_i rest _
      cases rest with
      | nil => cases deeper
      | cons parent rest => exact (ih rfl deeper).tail (edge parent rfl)

structure Visits (graph : Graph Node) (colors : Colors Node) (path done : List Node) : Prop where
  visiting : ∀ node, colors node = some .visiting ↔ node ∈ path
  visited : ∀ node, colors node = some .visited ↔ node ∈ done
  nodup : path.Nodup
  finished : Finished graph done

theorem Visits.enter (visits : Visits graph colors path done) (fresh : colors node = none) :
    Visits graph (colors.set node .visiting) (node :: path) done := by
  have new : node ∉ path := fun member => by simp [(visits.visiting node).mpr member] at fresh
  have undone : node ∉ done := fun member => by simp [(visits.visited node).mpr member] at fresh
  refine ⟨?_, ?_, nodup_cons.mpr ⟨new, visits.nodup⟩, visits.finished⟩
  · intro other
    by_cases same : other = node
    · subst same
      simp [Colors.set]
    · simp [Colors.set, same, visits.visiting]
  · intro other
    by_cases same : other = node
    · subst same
      simp [Colors.set, undone]
    · simp [Colors.set, same, visits.visited]

theorem Visits.leave (visits : Visits graph colors (node :: path) done)
    (closed : ∀ child ∈ graph.children node, child ∈ done) :
    Visits graph (colors.set node .visited) path (node :: done) := by
  have own := (visits.visiting node).mpr mem_cons_self
  have undone : node ∉ done := fun member => by simp [(visits.visited node).mpr member] at own
  obtain ⟨new, nodup⟩ := nodup_cons.mp visits.nodup
  refine ⟨?_, ?_, nodup, undone, closed, visits.finished⟩
  · intro other
    by_cases same : other = node
    · subst same
      simp [Colors.set, new]
    · simp [Colors.set, same, visits.visiting]
  · intro other
    by_cases same : other = node
    · subst same
      simp [Colors.set]
    · simp [Colors.set, same, visits.visited]

theorem search_visits (visits : Visits graph colors path done) (stacked : Stacked graph done none path stack) :
    (search graph colors stack = none → ∃ node, Relation.TransGen (Edge graph) node node) ∧
    ∀ last, search graph colors stack = some last →
      ∃ more, Visits graph last [] more ∧ (∀ node ∈ done, node ∈ more) ∧
        ∀ frame ∈ stack, frame.node ∈ more := by
  fun_induction search graph colors stack generalizing path done with
  | case1 colors =>
    refine ⟨by simp, ?_⟩
    intro last same
    cases same
    have ended : path = [] := by
      generalize whole : ([] : List (Frame Node)) = frames at stacked
      cases stacked with
      | roots => rfl
      | visits _ owner pending => simp at whole
    subst ended
    exact ⟨done, visits, fun node member => member, by simp⟩
  | case2 colors node stack ih =>
    obtain ⟨rest, rfl, below, closed⟩ := Stacked.leave stacked
    obtain ⟨cycles, ends⟩ := ih (visits.leave closed) below
    refine ⟨cycles, ?_⟩
    intro last ended
    obtain ⟨more, visits, sub, pending⟩ := ends last ended
    refine ⟨more, visits, fun other member => sub other (mem_cons_of_mem _ member), ?_⟩
    intro frame listed
    rcases mem_cons.mp listed with rfl | listed
    · exact sub node mem_cons_self
    · exact pending frame listed
  | case3 colors node stack seen =>
    refine ⟨fun _ => ?_, by simp⟩
    have member := (visits.visiting node).mp seen
    have edge := (Stacked.pop stacked (some node) (.inr rfl)).2
    cases path with
    | nil => cases member
    | cons top path =>
      exact ⟨node, Relation.TransGen.tail' (stacked.reaches rfl member) (edge top rfl)⟩
  | case4 colors node stack seen ih =>
    have member := (visits.visited node).mp seen
    obtain ⟨cycles, ends⟩ := ih visits (Stacked.pop stacked none (.inl member)).1
    refine ⟨cycles, ?_⟩
    intro last ended
    obtain ⟨more, visits, sub, pending⟩ := ends last ended
    refine ⟨more, visits, sub, ?_⟩
    intro frame listed
    rcases mem_cons.mp listed with rfl | listed
    · exact sub node member
    · exact pending frame listed
  | case5 colors node stack seen ih =>
    obtain ⟨below, edge⟩ := Stacked.pop stacked (some node) (.inr rfl)
    obtain ⟨cycles, ends⟩ := ih (visits.enter seen)
      (.visits none node (graph.children node) below edge (fun child member => member) fun child member => .inr (.inl member))
    refine ⟨cycles, ?_⟩
    intro last ended
    obtain ⟨more, visits, sub, pending⟩ := ends last ended
    refine ⟨more, visits, sub, ?_⟩
    intro frame listed
    rcases mem_cons.mp listed with rfl | listed
    · exact pending (DepthFirst.leave node) (mem_append_right _ mem_cons_self)
    · exact pending frame (mem_append_right _ (mem_cons_of_mem _ listed))

theorem searchAll_visits (roots : List Node) (visits : Visits graph colors [] done) :
    (searchAll graph colors roots = none → ∃ node, Relation.TransGen (Edge graph) node node) ∧
    ∀ last, searchAll graph colors roots = some last →
      ∃ more, Finished graph more ∧ (∀ node ∈ done, node ∈ more) ∧ ∀ root ∈ roots, root ∈ more := by
  induction roots generalizing colors done with
  | nil => exact ⟨by simp [searchAll], fun last _ => ⟨done, visits.finished, fun node member => member, by simp⟩⟩
  | cons root roots ih =>
    rw [searchAll]
    by_cases seen : colors root = some .visited
    · rw [if_pos seen]
      obtain ⟨cycles, ends⟩ := ih visits
      refine ⟨cycles, ?_⟩
      intro last ended
      obtain ⟨more, finished, sub, rest⟩ := ends last ended
      exact ⟨more, finished, sub, forall_mem_cons.mpr ⟨sub root ((visits.visited root).mp seen), rest⟩⟩
    · rw [if_neg seen]
      obtain ⟨cycles, ends⟩ := search_visits visits (.roots none [root])
      cases found : search graph colors [enter root] with
      | none => exact ⟨fun _ => cycles found, by simp⟩
      | some next =>
        obtain ⟨middle, visits, first, pending⟩ := ends next found
        obtain ⟨cycles, ends⟩ := ih visits
        refine ⟨cycles, ?_⟩
        intro last ended
        obtain ⟨more, finished, sub, rest⟩ := ends last ended
        exact ⟨more, finished, fun node member => sub node (first node member),
          forall_mem_cons.mpr ⟨sub root (pending (enter root) mem_cons_self), rest⟩⟩

theorem searchAll_none (graph : Graph Node) :
    searchAll graph (fun _ => none) graph.nodes = none ↔ ∃ node, Relation.TransGen (Edge graph) node node := by
  have fresh : Visits graph (fun _ => none) [] [] := ⟨by simp, by simp, nodup_nil, trivial⟩
  obtain ⟨cycles, ends⟩ := searchAll_visits graph.nodes fresh
  constructor
  · exact cycles
  · rintro ⟨node, cycle⟩
    cases found : searchAll graph (fun _ => none) graph.nodes with
    | none => rfl
    | some last =>
      obtain ⟨more, finished, -, all⟩ := ends last found
      obtain ⟨child, edge, -⟩ := Relation.TransGen.head'_iff.mp cycle
      have listed : node ∈ graph.nodes := by
        by_contra other
        rw [Edge, graph.bounded node other] at edge
        cases edge
      exact absurd cycle (finished.acyclic (all node listed))

end
end DepthFirst
