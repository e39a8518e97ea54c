import DocHarvest.Proofs.Node.RoundTrip
import DocHarvest.Proofs.Outcome

/-!
# Which data are serialized trees

`IsNodeData` is the grammar, said without the way a tree is read: an object whose tag names a kind
of node, with fields that keep to the rules of that kind (`NodeKind.fieldRules`). Reading accepts
exactly the data of the grammar, and of any other it builds nothing (`Node.ofData_accepts_grammar`).
-/
namespace DocHarvest

/-- Null, false, zero and everything empty. -/
inductive Datum.IsVoid : Datum → Prop
  | null : IsVoid null
  | no : IsVoid (bool false)
  | zero : IsVoid (int 0)
  | floatZero (negative : Bool) (exponent : Int) : IsVoid (float (.finite negative 0 exponent))
  | text : IsVoid (text "")
  | list : IsVoid (list [])
  | object : IsVoid (object [])

theorem Datum.isPresent_eq_false_iff {d : Datum} : d.isPresent = false ↔ d.IsVoid := by
  constructor
  · intro h
    cases d with
    | null => exact .null
    | bool b =>
      cases b with
      | false => exact .no
      | true => cases h
    | int n =>
      have hn : n = 0 := by simpa [isPresent] using h
      rw [hn]
      exact .zero
    | float x =>
      cases x with
      | finite negative mantissa exponent =>
        have hm : mantissa = 0 := by simpa [isPresent, Double.isZero] using h
        rw [hm]
        exact .floatZero negative exponent
      | _ => cases h
    | text s =>
      have hs : s = "" := by simpa [isPresent] using h
      rw [hs]
      exact .text
    | date s => cases h
    | list ds =>
      cases ds with
      | nil => exact .list
      | cons d ds => cases h
    | object fs =>
      cases fs with
      | nil => exact .object
      | cons f fs => cases h
  · intro h
    cases h <;> rfl

/-- What a field of a serialized node has to hold. -/
inductive FieldRule where
  /-- A node. -/
  | node
  /-- A node, unless the field is absent or null. -/
  | optionalNode
  /-- A node, unless the field is absent or void. -/
  | body
  /-- A list of nodes, unless the field is absent or void. -/
  | nodes

/-- The fields in which nodes of a kind hold other nodes. -/
def NodeKind.fieldRules : NodeKind → List (String × FieldRule)
  | comment | literal | this | access => []
  | value => [("base", .node), ("properties", .nodes)]
  | obj => [("properties", .nodes)]
  | arr => [("objects", .nodes)]
  | param => [("name", .node)]
  | block => [("expressions", .nodes)]
  | code => [("params", .nodes), ("body", .body)]
  | assign => [("variable", .node), ("value", .node)]
  | classDecl => [("variable", .optionalNode), ("parent", .optionalNode), ("body", .body)]
  | call => [("variable", .node), ("args", .nodes)]

/-- A field, or its absence, keeps to a rule, where `P` says which data are nodes. -/
inductive FieldRule.Admits (P : Datum → Prop) : FieldRule → Option Datum → Prop
  | node {d : Datum} (h : P d) : Admits P .node (some d)
  | optionalAbsent : Admits P .optionalNode none
  | optionalNull : Admits P .optionalNode (some .null)
  | optionalNode {d : Datum} (h : P d) : Admits P .optionalNode (some d)
  | bodyAbsent : Admits P .body none
  | bodyVoid {d : Datum} (h : d.IsVoid) : Admits P .body (some d)
  | body {d : Datum} (h : P d) : Admits P .body (some d)
  | nodesAbsent : Admits P .nodes none
  | nodesVoid {d : Datum} (h : d.IsVoid) : Admits P .nodes (some d)
  | nodes {ds : List Datum} (h : ∀ d ∈ ds, P d) : Admits P .nodes (some (.list ds))

/-- The serialized form of a node. Fields that its kind does not know may hold anything. -/
inductive IsNodeData : Datum → Prop
  | node {fs : List (String × Datum)} {kind : NodeKind}
      (htag : fs.lookup "type" = some (.text kind.name))
      (hfields : ∀ field ∈ kind.fieldRules, field.2.Admits IsNodeData (fs.lookup field.1)) :
      IsNodeData (.object fs)

theorem isNodeData_object_iff {fs : List (String × Datum)} {kind : NodeKind}
    (htag : fs.lookup "type" = some (.text kind.name)) :
    IsNodeData (.object fs) ↔
      ∀ field ∈ kind.fieldRules, field.2.Admits IsNodeData (fs.lookup field.1) := by
  constructor
  · intro h
    cases h with
    | @node _ other hother hfields =>
      have hname : other.name = kind.name := by
        rw [htag] at hother
        simpa using hother.symm
      have hkind : other = kind := by
        have hof := congrArg NodeKind.ofName? hname
        simpa [NodeKind.ofName?_name] using hof
      rw [← hkind]
      exact hfields
  · exact .node htag

/-- What can be wrong with data that are no serialized tree. -/
inductive Fault.OfReading : Fault → Prop
  | notMapping : OfReading .notMapping
  | notIterable : OfReading .notIterable
  | missingKey (key : String) : OfReading (.missingKey key)
  | unknownNodeType (tag : Datum) : OfReading (.unknownNodeType tag)

namespace Node

/-- The reading ends well just if the datum is what it is read as. -/
abbrev Recognizes {α : Type} (P : Prop) (x : Except Fault α) : Prop :=
  Settles P Fault.OfReading (fun _ => True) x

theorem recognizes_ok {α : Type} (a : α) {P : Prop} (hP : P) : Recognizes P (.ok a) :=
  .ok hP trivial

theorem allOfData_recognizes {ds : List Datum}
    (h : ∀ d ∈ ds, Recognizes (IsNodeData d) (ofData d)) :
    Recognizes (∀ d ∈ ds, IsNodeData d) (allOfData ds) := by
  induction ds with
  | nil => exact recognizes_ok [] (by simp)
  | cons d ds ih =>
    obtain ⟨hd, hds⟩ := List.forall_mem_cons.mp h
    rw [allOfData]
    refine Settles.congr (hd.bind fun n _ => ?_) List.forall_mem_cons.symm
    exact (ih hds).map fun ns _ => ⟨n :: ns, rfl, trivial⟩

/-- Whatever can be a node in the datum or be one of its items is recognized. -/
structure PartsRecognized (d : Datum) : Prop where
  node : Recognizes (IsNodeData d) (ofData d)
  items : ∀ ds, d = .list ds → ∀ item ∈ ds, Recognizes (IsNodeData item) (ofData item)

section Fields

variable {fs : List (String × Datum)} (h : ∀ key d, fs.lookup key = some d → PartsRecognized d)
  (key : String)

include h

theorem node_recognizes :
    Recognizes (FieldRule.Admits IsNodeData .node (fs.lookup key)) ((readFields fs).node key) := by
  rw [Readings.node, lookup_readFields]
  cases hd : fs.lookup key with
  | none =>
    refine .error ?_ (.missingKey key)
    intro hadmits
    cases hadmits
  | some d =>
    refine (h key d hd).node.congr ⟨.node, ?_⟩
    intro hadmits
    cases hadmits with
    | node hnode => exact hnode

theorem node?_recognizes :
    Recognizes (FieldRule.Admits IsNodeData .optionalNode (fs.lookup key))
      ((readFields fs).node? key) := by
  rw [Readings.node?, lookup_readFields]
  cases hd : fs.lookup key with
  | none => exact recognizes_ok _ .optionalAbsent
  | some d =>
    dsimp only [Option.map_some]
    cases hnull : d.isNull with
    | true =>
      cases d with
      | null => exact recognizes_ok _ .optionalNull
      | _ => cases hnull
    | false =>
      have hnode : Recognizes (IsNodeData d) ((ofData d).map some) :=
        (h key d hd).node.map fun n _ => ⟨some n, rfl, trivial⟩
      refine hnode.congr ⟨.optionalNode, ?_⟩
      intro hadmits
      cases hadmits with
      | optionalNull => cases hnull
      | optionalNode hd => exact hd

theorem body_recognizes :
    Recognizes (FieldRule.Admits IsNodeData .body (fs.lookup key)) ((readFields fs).body key) := by
  rw [Readings.body, lookup_readFields]
  cases hd : fs.lookup key with
  | none => exact recognizes_ok _ .bodyAbsent
  | some d =>
    dsimp only [Option.map_some]
    cases hpresent : d.isPresent with
    | false => exact recognizes_ok _ (.bodyVoid (Datum.isPresent_eq_false_iff.mp hpresent))
    | true =>
      refine (h key d hd).node.congr ⟨.body, ?_⟩
      intro hadmits
      cases hadmits with
      | bodyVoid hvoid => simp [Datum.isPresent_eq_false_iff.mpr hvoid] at hpresent
      | body hnode => exact hnode

theorem nodes_recognizes :
    Recognizes (FieldRule.Admits IsNodeData .nodes (fs.lookup key))
      ((readFields fs).nodes key) := by
  rw [Readings.nodes, lookup_readFields]
  cases hd : fs.lookup key with
  | none => exact recognizes_ok _ .nodesAbsent
  | some d =>
    dsimp only [Option.map_some]
    cases hpresent : d.isPresent with
    | false => exact recognizes_ok _ (.nodesVoid (Datum.isPresent_eq_false_iff.mp hpresent))
    | true =>
      have hvoid : ¬d.IsVoid := by simp [← Datum.isPresent_eq_false_iff, hpresent]
      -- Anything present that is no list has no nodes for members.
      have hother : (∀ ds, d ≠ .list ds) → ¬FieldRule.Admits IsNodeData .nodes (some d) := by
        intro hlist hadmits
        cases hadmits with
        | nodesVoid hd => exact hvoid hd
        | nodes _ => exact hlist _ rfl
      cases d with
      | list ds =>
        refine (allOfData_recognizes ((h key _ hd).items ds rfl)).congr ⟨.nodes, ?_⟩
        intro hadmits
        cases hadmits with
        | nodesVoid hd => exact absurd hd hvoid
        | nodes hds => exact hds
      | text _ | object _ => exact .error (hother (by simp)) .notMapping
      | _ => exact .error (hother (by simp)) .notIterable

theorem build_recognizes (kind : NodeKind) :
    Recognizes (∀ field ∈ kind.fieldRules, field.2.Admits IsNodeData (fs.lookup field.1))
      (build (readFields fs) kind) := by
  have hnode := node_recognizes h
  have hnode? := node?_recognizes h
  have hbody := body_recognizes h
  have hnodes := nodes_recognizes h
  cases kind with
  | comment | literal | this | access => exact recognizes_ok _ (by simp [NodeKind.fieldRules])
  | value | call =>
    refine Settles.congr ((hnode _).bind fun n _ => (hnodes _).map fun ns _ => ?_) ?_
    · exact ⟨_, rfl, trivial⟩
    · simp [NodeKind.fieldRules]
  | obj | arr | block =>
    refine Settles.congr ((hnodes _).map fun ns _ => ?_) ?_
    · exact ⟨_, rfl, trivial⟩
    · simp [NodeKind.fieldRules]
  | param =>
    refine Settles.congr ((hnode _).map fun n _ => ?_) ?_
    · exact ⟨_, rfl, trivial⟩
    · simp [NodeKind.fieldRules]
  | code =>
    refine Settles.congr ((hnodes _).bind fun ns _ => (hbody _).map fun n _ => ?_) ?_
    · exact ⟨_, rfl, trivial⟩
    · simp [NodeKind.fieldRules]
  | assign =>
    refine Settles.congr ((hnode _).bind fun n _ => (hnode _).map fun m _ => ?_) ?_
    · exact ⟨_, rfl, trivial⟩
    · simp [NodeKind.fieldRules]
  | classDecl =>
    refine Settles.congr
      ((hnode? _).bind fun n _ => (hnode? _).bind fun m _ => (hbody _).map fun b _ => ?_) ?_
    · exact ⟨_, rfl, trivial⟩
    · simp [NodeKind.fieldRules]

end Fields

theorem sizeOf_lt_of_lookup {fs : List (String × Datum)} {key : String} {d : Datum}
    (h : fs.lookup key = some d) : sizeOf d < sizeOf (Datum.object fs) := by
  obtain ⟨before, after, rfl, -⟩ := List.lookup_eq_some_iff.mp h
  have hmem : (key, d) ∈ before ++ (key, d) :: after := by simp
  have hlt := List.sizeOf_lt_of_mem hmem
  simp only [Prod.mk.sizeOf_spec, Datum.object.sizeOf_spec] at hlt ⊢
  omega

theorem ofData_object_of_no_kind {fs : List (String × Datum)}
    (h : ∀ kind : NodeKind, fs.lookup "type" ≠ some (.text kind.name)) :
    ∃ tag, ofData (.object fs) = .error (.unknownNodeType tag) := by
  rw [ofData, ofReadings]
  split
  · next name htag =>
    cases hkind : NodeKind.ofName? name with
    | none => exact ⟨_, rfl⟩
    | some kind =>
      have hname : fs.lookup "type" = some (.text name) := by
        rw [Readings.datum, lookup_readFields] at htag
        cases hd : fs.lookup "type" with
        | none => simp [hd] at htag
        | some d => simpa [hd] using htag
      rw [← NodeKind.name_of_ofName? hkind] at hname
      exact absurd hname (h kind)
  · exact ⟨_, rfl⟩

theorem ofData_object_recognizes {fs : List (String × Datum)}
    (h : ∀ key d, fs.lookup key = some d → PartsRecognized d) :
    Recognizes (IsNodeData (.object fs)) (ofData (.object fs)) := by
  by_cases hkind : ∃ kind : NodeKind, fs.lookup "type" = some (.text kind.name)
  · obtain ⟨kind, hkind⟩ := hkind
    rw [ofData_object hkind]
    exact (build_recognizes h kind).congr (isNodeData_object_iff hkind).symm
  · have hno : ∀ kind : NodeKind, fs.lookup "type" ≠ some (.text kind.name) := by
      intro kind hk
      exact hkind ⟨kind, hk⟩
    obtain ⟨tag, htag⟩ := ofData_object_of_no_kind hno
    rw [htag]
    refine .error ?_ (.unknownNodeType tag)
    intro hnode
    cases hnode with
    | @node _ kind hk _ => exact hno kind hk

theorem ofData_recognizes (d : Datum) : Recognizes (IsNodeData d) (ofData d) := by
  induction hn : sizeOf d using Nat.strongRecOn generalizing d with
  | ind n ih =>
    subst hn
    cases d with
    | object fs =>
      apply ofData_object_recognizes
      intro key d hd
      have hlt := sizeOf_lt_of_lookup hd
      refine ⟨ih _ hlt d rfl, ?_⟩
      rintro ds rfl item hitem
      have hsize := List.sizeOf_lt_of_mem hitem
      have hlist := Datum.list.sizeOf_spec ds
      exact ih _ (by omega) item rfl
    | _ =>
      refine .error ?_ .notMapping
      intro hnode
      cases hnode

/-- The data that are read as nodes are those of the grammar. Any other datum is refused for want of
fields, of a key, of items or of a kind that its tag names. -/
theorem ofData_accepts_grammar (d : Datum) :
    ((∃ n, ofData d = .ok n) ↔ IsNodeData d) ∧
      ((∃ e, ofData d = .error e ∧ e.OfReading) ↔ ¬IsNodeData d) := by
  have h := ofData_recognizes d
  constructor
  · simpa using h.returns_iff
  · exact h.fails_iff

end Node

end DocHarvest
