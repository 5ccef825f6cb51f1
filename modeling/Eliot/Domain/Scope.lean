import Eliot.Collections.Insertion
import Eliot.Text.Json

namespace Domain

open List
open Text (jsonString jsonArray)

inductive ScopeAtom where
  | globalLibrary
  | project (projectId : Text)
  | selectedSources (sourceIds : List Text)
  | sourceClass (sourceClass : Text)
  | tag (tag : Text)
deriving DecidableEq

inductive Commutative where
  | union
  | intersect
deriving DecidableEq

def Commutative.name : Commutative → Text
  | .union => text "UNION"
  | .intersect => text "INTERSECT"

inductive ScopeExpression where
  | atom (atom : ScopeAtom)
  | combine (kind : Commutative) (left right : ScopeExpression)
  | except (left right : ScopeExpression)
deriving DecidableEq

def jsonObject (kind : Text) (fields : List (Text × Text)) : Text :=
  123 :: (jsonString (text "kind") ++ 58 :: jsonString kind) ++
    fields.flatMap (fun field => 44 :: jsonString field.1 ++ 58 :: field.2) ++ [125]

def ScopeAtom.kind : ScopeAtom → Text
  | .globalLibrary => text "GLOBAL_LIBRARY"
  | .project _ => text "PROJECT"
  | .selectedSources _ => text "SELECTED_SOURCES"
  | .sourceClass _ => text "SOURCE_CLASS"
  | .tag _ => text "TAG"

def ScopeAtom.fields : ScopeAtom → List (Text × Text)
  | .globalLibrary => []
  | .project projectId => [(text "project_id", jsonString projectId)]
  | .selectedSources sourceIds => [(text "source_ids", jsonArray (sourceIds.map jsonString))]
  | .sourceClass name => [(text "source_class", jsonString name)]
  | .tag name => [(text "tag", jsonString name)]

def ScopeAtom.json (atom : ScopeAtom) : Text := jsonObject atom.kind atom.fields

/-- `JSON.stringify(expression)` -/
def normalizedIdentity : ScopeExpression → Text
  | .atom atom => atom.json
  | .combine kind left right =>
    jsonObject kind.name
      [(text "left", normalizedIdentity left), (text "right", normalizedIdentity right)]
  | .except left right =>
    jsonObject (text "EXCEPT")
      [(text "left", normalizedIdentity left), (text "right", normalizedIdentity right)]

def ScopeExpression.nodes : ScopeExpression → Nat
  | .atom _ => 1
  | .combine _ left right => 1 + left.nodes + right.nodes
  | .except left right => 1 + left.nodes + right.nodes

def normalizeAtom : ScopeAtom → ScopeAtom
  | .selectedSources sourceIds =>
    .selectedSources ((Insertion.unique sourceIds).insertionSort (· ≤ ·))
  | atom => atom

def flattenCommutative (kind : Commutative) : ScopeExpression → List ScopeExpression
  | .combine other left right =>
    if other = kind then flattenCommutative kind left ++ flattenCommutative kind right
    else [.combine other left right]
  | expression => [expression]

theorem flattenCommutative_combine {kind : Commutative} (left right : ScopeExpression) :
    flattenCommutative kind (.combine kind left right) =
      flattenCommutative kind left ++ flattenCommutative kind right := by
  rw [flattenCommutative, if_pos rfl]

theorem flattenCommutative_size {kind : Commutative} {expression operand : ScopeExpression}
    (listed : operand ∈ flattenCommutative kind expression) :
    sizeOf operand ≤ sizeOf expression := by
  induction expression with
  | atom atom =>
    rw [mem_singleton.mp listed]
  | combine other left right ihLeft ihRight =>
    unfold flattenCommutative at listed
    split at listed
    · rcases mem_append.mp listed with member | member
      · have below := ihLeft member
        simp only [ScopeExpression.combine.sizeOf_spec]
        omega
      · have below := ihRight member
        simp only [ScopeExpression.combine.sizeOf_spec]
        omega
    · rw [mem_singleton.mp listed]
  | except left right =>
    rw [mem_singleton.mp listed]

theorem flattenCommutative_smaller {kind : Commutative} {left right operand : ScopeExpression}
    (listed : operand ∈ flattenCommutative kind (.combine kind left right)) :
    sizeOf operand < sizeOf (ScopeExpression.combine kind left right) := by
  rw [flattenCommutative, if_pos rfl, mem_append] at listed
  simp only [ScopeExpression.combine.sizeOf_spec]
  rcases listed with member | member
  · have below := flattenCommutative_size member
    omega
  · have below := flattenCommutative_size member
    omega

theorem ScopeExpression.flattened_induction {wanted : ScopeExpression → Prop}
    (basic : ∀ atom, wanted (.atom atom))
    (except : ∀ left right, wanted left → wanted right → wanted (.except left right))
    (combine : ∀ kind left right,
      (∀ operand ∈ flattenCommutative kind (.combine kind left right), wanted operand) →
        wanted (.combine kind left right)) (expression : ScopeExpression) : wanted expression := by
  induction size : sizeOf expression using Nat.strongRecOn generalizing expression with
  | ind length ih =>
    subst size
    cases expression with
    | atom atom => exact basic atom
    | except left right =>
      refine except left right (ih _ ?_ left rfl) (ih _ ?_ right rfl)
      · simp only [ScopeExpression.except.sizeOf_spec]
        omega
      · simp only [ScopeExpression.except.sizeOf_spec]
        omega
    | combine kind left right =>
      exact combine kind left right fun operand listed =>
        ih _ (flattenCommutative_smaller listed) operand rfl

/-- `operands.slice(1).reduce((left, right) => ({kind, left, right}), first)` -/
def joined (kind : Commutative) (first : ScopeExpression) (rest : List ScopeExpression) :
    ScopeExpression := rest.foldl (.combine kind) first

def normalizeScopeExpression : ScopeExpression → ScopeExpression
  | .atom atom => .atom (normalizeAtom atom)
  | .except left right =>
    .except (normalizeScopeExpression left) (normalizeScopeExpression right)
  | .combine kind left right =>
    let normalized := (flattenCommutative kind (.combine kind left right)).attach.map
      fun ⟨operand, _⟩ => normalizeScopeExpression operand
    match Insertion.arranged normalizedIdentity normalized with
    | [] => normalizeScopeExpression left
    | first :: rest => joined kind first rest
termination_by expression => sizeOf expression
decreasing_by
  · simp only [ScopeExpression.except.sizeOf_spec]
    omega
  · simp only [ScopeExpression.except.sizeOf_spec]
    omega
  · exact flattenCommutative_smaller (by assumption)
  · simp only [ScopeExpression.combine.sizeOf_spec]
    omega

def scopeExpressionIdentity (expression : ScopeExpression) : Text :=
  normalizedIdentity (normalizeScopeExpression expression)

def collectAtoms : List ScopeExpression → List ScopeAtom
  | [] => []
  | .atom atom :: pending => atom :: collectAtoms pending
  | .combine _ left right :: pending => collectAtoms (left :: right :: pending)
  | .except left right :: pending => collectAtoms (left :: right :: pending)
termination_by pending => (pending.map ScopeExpression.nodes).sum
decreasing_by all_goals simp only [map_cons, sum_cons, ScopeExpression.nodes]; omega

def scopeExpressionAtoms (expression : ScopeExpression) : List ScopeAtom :=
  Insertion.arranged ScopeAtom.json (collectAtoms [normalizeScopeExpression expression])

theorem jsonObject_head {first second left right : Text} {fields others : List (Text × Text)}
    (same : jsonObject first fields ++ left = jsonObject second others ++ right) :
    first = second ∧
      fields.flatMap (fun field => 44 :: jsonString field.1 ++ 58 :: field.2) ++ (125 :: left) =
        others.flatMap (fun field => 44 :: jsonString field.1 ++ 58 :: field.2) ++ (125 :: right) := by
  simp only [jsonObject, cons_append, append_assoc, nil_append, List.cons.injEq,
    true_and, append_cancel_left_eq] at same
  exact Text.jsonString_unique same

theorem jsonObject_field {kind name first second left right : Text}
    (same : jsonObject kind [(name, first)] ++ left = jsonObject kind [(name, second)] ++ right) :
    first ++ 125 :: left = second ++ 125 :: right := by
  simpa using (jsonObject_head same).2

theorem ScopeAtom.json_unique {first second : ScopeAtom} {left right : Text}
    (same : first.json ++ left = second.json ++ right) : first = second ∧ left = right := by
  have kinds := (jsonObject_head same).1
  cases first <;> cases second <;> simp only [ScopeAtom.kind] at kinds <;> first
    | exact absurd kinds (by decide)
    | skip
  · exact ⟨rfl, by simpa using (jsonObject_head same).2⟩
  · obtain ⟨rfl, ends⟩ := Text.jsonString_unique (jsonObject_field same)
    exact ⟨rfl, by simpa using ends⟩
  · obtain ⟨rfl, ends⟩ := Text.jsonArray_unique (jsonObject_field same)
    exact ⟨rfl, by simpa using ends⟩
  · obtain ⟨rfl, ends⟩ := Text.jsonString_unique (jsonObject_field same)
    exact ⟨rfl, by simpa using ends⟩
  · obtain ⟨rfl, ends⟩ := Text.jsonString_unique (jsonObject_field same)
    exact ⟨rfl, by simpa using ends⟩

theorem ScopeAtom.json_injective : Function.Injective ScopeAtom.json := by
  intro first second same
  exact (ScopeAtom.json_unique (congrArg (· ++ []) same)).1

def ScopeExpression.kind : ScopeExpression → Text
  | .atom basic => basic.kind
  | .combine kind _ _ => kind.name
  | .except _ _ => text "EXCEPT"

theorem normalizedIdentity_kind (expression : ScopeExpression) :
    ∃ fields, normalizedIdentity expression = jsonObject expression.kind fields := by
  cases expression with
  | atom atom => exact ⟨_, rfl⟩
  | combine kind left right => exact ⟨_, rfl⟩
  | except left right => exact ⟨_, rfl⟩

theorem ScopeAtom.kind_basic (atom : ScopeAtom) :
    atom.kind ≠ Commutative.union.name ∧ atom.kind ≠ Commutative.intersect.name ∧
      atom.kind ≠ text "EXCEPT" := by
  cases atom <;> simp only [ScopeAtom.kind] <;> decide

theorem jsonObject_operands {kind one two three four left right : Text}
    (same : jsonObject kind [(text "left", one), (text "right", two)] ++ left =
      jsonObject kind [(text "left", three), (text "right", four)] ++ right) :
    one ++ (44 :: jsonString (text "right") ++ 58 :: (two ++ 125 :: left)) =
      three ++ (44 :: jsonString (text "right") ++ 58 :: (four ++ 125 :: right)) := by
  simpa using (jsonObject_head same).2

theorem normalizedIdentity_kinds {first second : ScopeExpression} {left right : Text}
    (same : normalizedIdentity first ++ left = normalizedIdentity second ++ right) :
    first.kind = second.kind := by
  obtain ⟨fields, one⟩ := normalizedIdentity_kind first
  obtain ⟨others, two⟩ := normalizedIdentity_kind second
  rw [one, two] at same
  exact (jsonObject_head same).1

theorem Commutative.name_injective {kind other : Commutative} (same : kind.name = other.name) :
    kind = other := by
  cases kind <;> cases other <;> first
    | rfl
    | exact absurd same (by decide)

theorem Commutative.name_except (kind : Commutative) : kind.name ≠ text "EXCEPT" := by
  cases kind <;> decide

theorem ScopeAtom.kind_commutative (atom : ScopeAtom) (kind : Commutative) :
    atom.kind ≠ kind.name := by
  cases kind
  · exact atom.kind_basic.1
  · exact atom.kind_basic.2.1

theorem normalizedIdentity_unique {first second : ScopeExpression} {left right : Text}
    (same : normalizedIdentity first ++ left = normalizedIdentity second ++ right) :
    first = second ∧ left = right := by
  induction first generalizing second left right with
  | atom atom =>
    have kinds := normalizedIdentity_kinds same
    cases second with
    | atom other =>
      obtain ⟨rfl, ends⟩ := ScopeAtom.json_unique same
      exact ⟨rfl, ends⟩
    | combine kind _ _ => exact absurd kinds (atom.kind_commutative kind)
    | except _ _ => exact absurd kinds atom.kind_basic.2.2
  | combine kind one two ihOne ihTwo =>
    have kinds := normalizedIdentity_kinds same
    cases second with
    | atom other => exact absurd kinds.symm (other.kind_commutative kind)
    | combine other three four =>
      obtain rfl := Commutative.name_injective kinds
      obtain ⟨rfl, rest⟩ := ihOne (jsonObject_operands same)
      obtain ⟨rfl, ends⟩ := ihTwo (by simpa using rest)
      exact ⟨rfl, by simpa using ends⟩
    | except _ _ => exact absurd kinds kind.name_except
  | except one two ihOne ihTwo =>
    have kinds := normalizedIdentity_kinds same
    cases second with
    | atom other => exact absurd kinds.symm other.kind_basic.2.2
    | combine kind _ _ => exact absurd kinds.symm kind.name_except
    | except three four =>
      obtain ⟨rfl, rest⟩ := ihOne (jsonObject_operands same)
      obtain ⟨rfl, ends⟩ := ihTwo (by simpa using rest)
      exact ⟨rfl, by simpa using ends⟩

theorem normalizedIdentity_injective : Function.Injective normalizedIdentity := by
  intro first second same
  exact (normalizedIdentity_unique (congrArg (· ++ []) same)).1

end Domain
