import DocHarvest.Documenter
import DocHarvest.Proofs.Datum.Sameness
import DocHarvest.Proofs.Trace

/-!
# Serialized trees are read back as they were

Reading a serialized node gives that node again, whatever its fields hold (`Node.ofData_toData`), so
a script has the same document in both of its forms. A tree that was read from regular data is
regular, and so the same as itself.
-/
namespace DocHarvest

namespace Node

/-- The serialized form of a node is an object with a tag. -/
theorem toData_eq (n : Node) :
    ∃ fs, n.toData = .object (("type", .text n.kind.name) :: fs) := by
  cases n <;> exact ⟨_, rfl⟩

theorem isPresent_toData (n : Node) : n.toData.isPresent = true := by
  obtain ⟨fs, hfs⟩ := toData_eq n
  rw [hfs]
  rfl

theorem isNull_toData (n : Node) : n.toData.isNull = false := by
  obtain ⟨fs, hfs⟩ := toData_eq n
  rw [hfs]
  rfl

theorem lookup_readFields (fs : List (String × Datum)) (key : String) :
    (readFields fs).lookup key = (fs.lookup key).map fun d => ⟨d, ofData d, nodesOfData d⟩ := by
  induction fs with
  | nil => rfl
  | cons f fs ih =>
    obtain ⟨k, d⟩ := f
    rw [readFields, List.lookup_cons, List.lookup_cons]
    cases key == k with
    | true => rfl
    | false => exact ih

/-- An object with the tag of a kind is read as a node of that kind. -/
theorem ofData_object {fs : List (String × Datum)} {k : NodeKind}
    (h : fs.lookup "type" = some (.text k.name)) :
    ofData (.object fs) = build (readFields fs) k := by
  have htag : (readFields fs).datum "type" .null = .text k.name := by
    rw [Readings.datum, lookup_readFields, h]
    rfl
  rw [ofData, ofReadings, htag]
  dsimp only
  rw [NodeKind.ofName?_name]

section Fields

variable {fs : List (String × Datum)} {key : String}

theorem datum_readFields {d fallback : Datum} (h : fs.lookup key = some d) :
    (readFields fs).datum key fallback = d := by
  rw [Readings.datum, lookup_readFields, h]
  rfl

theorem node_readFields {n : Node} (h : fs.lookup key = some n.toData)
    (hn : ofData n.toData = .ok n) : (readFields fs).node key = .ok n := by
  rw [Readings.node, lookup_readFields, h]
  exact hn

theorem body_readFields {n : Node} (h : fs.lookup key = some n.toData)
    (hn : ofData n.toData = .ok n) : (readFields fs).body key = .ok n := by
  rw [Readings.body, lookup_readFields, h]
  dsimp only [Option.map_some]
  rw [if_pos (isPresent_toData n)]
  exact hn

theorem nodes_readFields {ns : List Node} (h : fs.lookup key = some (.list (allToData ns)))
    (hns : allOfData (allToData ns) = .ok ns) : (readFields fs).nodes key = .ok ns := by
  rw [Readings.nodes, lookup_readFields, h]
  dsimp only [Option.map_some]
  cases ns with
  | nil => rfl
  | cons n ns =>
    have hpresent : (Datum.list (allToData (n :: ns))).isPresent = true := rfl
    rw [if_pos hpresent]
    exact hns

theorem node?_readFields {o : Option Node} (h : fs.lookup key = some (optionToData o))
    (ho : ∀ n, o = some n → ofData n.toData = .ok n) : (readFields fs).node? key = .ok o := by
  rw [Readings.node?, lookup_readFields, h]
  dsimp only [Option.map_some]
  cases o with
  | none => rfl
  | some n =>
    rw [optionToData, if_neg (by simp [isNull_toData]), ho n rfl]
    rfl

end Fields

mutual

theorem ofData_toData : (n : Node) → ofData n.toData = .ok n
  | comment _ => by rw [toData, ofData_object rfl, build, datum_readFields rfl]
  | literal _ => by rw [toData, ofData_object rfl, build, datum_readFields rfl]
  | this => by rw [toData, ofData_object rfl, build]
  | access _ => by rw [toData, ofData_object rfl, build, datum_readFields rfl]
  | value base steps => by
    rw [toData, ofData_object rfl, build, node_readFields rfl (ofData_toData base),
      nodes_readFields rfl (allOfData_allToData steps)]
    rfl
  | obj entries => by
    rw [toData, ofData_object rfl, build, nodes_readFields rfl (allOfData_allToData entries)]
    rfl
  | arr items => by
    rw [toData, ofData_object rfl, build, nodes_readFields rfl (allOfData_allToData items)]
    rfl
  | param name splat => by
    rw [toData, ofData_object rfl, build, node_readFields rfl (ofData_toData name)]
    rfl
  | block statements => by
    rw [toData, ofData_object rfl, build, nodes_readFields rfl (allOfData_allToData statements)]
    rfl
  | code params body bound => by
    rw [toData, ofData_object rfl, build, nodes_readFields rfl (allOfData_allToData params),
      body_readFields rfl (ofData_toData body)]
    rfl
  | assign target v => by
    rw [toData, ofData_object rfl, build, node_readFields rfl (ofData_toData target),
      node_readFields rfl (ofData_toData v)]
    rfl
  | classDecl name parent body => by
    rw [toData, ofData_object rfl, build, node?_readFields rfl (ofData_of_option name),
      node?_readFields rfl (ofData_of_option parent), body_readFields rfl (ofData_toData body)]
    rfl
  | call callee args => by
    rw [toData, ofData_object rfl, build, node_readFields rfl (ofData_toData callee),
      nodes_readFields rfl (allOfData_allToData args)]
    rfl

theorem allOfData_allToData : (ns : List Node) → allOfData (allToData ns) = .ok ns
  | [] => rfl
  | n :: ns => by
    rw [allToData, allOfData, ofData_toData n, allOfData_allToData ns]
    rfl

theorem ofData_of_option : (o : Option Node) → ∀ n, o = some n → ofData n.toData = .ok n
  | none, _, h => nomatch h
  | some m, n, h => by
    rw [← Option.some.inj h]
    exact ofData_toData m

end

mutual

/-- The data in the fields of all nodes are regular. -/
def isRegular : Node → Bool
  | comment d | literal d | access d => d.isRegular
  | this => true
  | value base steps => isRegular base && allRegular steps
  | obj ns | arr ns | block ns => allRegular ns
  | param name splat => isRegular name && splat.isRegular
  | code params body bound => allRegular params && isRegular body && bound.isRegular
  | assign target v => isRegular target && isRegular v
  | classDecl name parent body => optionRegular name && optionRegular parent && isRegular body
  | call callee args => isRegular callee && allRegular args

def allRegular : List Node → Bool
  | [] => true
  | n :: ns => isRegular n && allRegular ns

def optionRegular : Option Node → Bool
  | none => true
  | some n => isRegular n

end

mutual

theorem same_self : (n : Node) → n.isRegular = true → n.same n = true
  | comment d, h => Datum.same_self d h
  | literal d, h => Datum.same_self d h
  | access d, h => Datum.same_self d h
  | this, _ => rfl
  | value base steps, h => by
    simp only [isRegular, Bool.and_eq_true] at h
    simp [same, same_self base h.1, sameAll_self steps h.2]
  | obj ns, h => sameAll_self ns h
  | arr ns, h => sameAll_self ns h
  | block ns, h => sameAll_self ns h
  | param name splat, h => by
    simp only [isRegular, Bool.and_eq_true] at h
    simp [same, same_self name h.1, BEq.beq, Datum.same_self splat h.2]
  | code params body bound, h => by
    simp only [isRegular, Bool.and_eq_true] at h
    simp [same, sameAll_self params h.1.1, same_self body h.1.2, BEq.beq,
      Datum.same_self bound h.2]
  | assign target v, h => by
    simp only [isRegular, Bool.and_eq_true] at h
    simp [same, same_self target h.1, same_self v h.2]
  | classDecl name parent body, h => by
    simp only [isRegular, Bool.and_eq_true] at h
    simp [same, sameOption_self name h.1.1, sameOption_self parent h.1.2, same_self body h.2]
  | call callee args, h => by
    simp only [isRegular, Bool.and_eq_true] at h
    simp [same, same_self callee h.1, sameAll_self args h.2]

theorem sameAll_self : (ns : List Node) → allRegular ns = true → sameAll ns ns = true
  | [], _ => rfl
  | n :: ns, h => by
    simp only [allRegular, Bool.and_eq_true] at h
    simp [sameAll, same_self n h.1, sameAll_self ns h.2]

theorem sameOption_self : (o : Option Node) → optionRegular o = true → sameOption o o = true
  | none, _ => rfl
  | some n, h => same_self n h

end

/-- Whatever a field is read as is regular. -/
structure Reading.Regular (r : Reading) : Prop where
  datum : r.datum.isRegular = true
  node : ∀ n, r.node = .ok n → n.isRegular = true
  nodes : ∀ ns, r.nodes = .ok ns → allRegular ns = true

def Readings.Regular (rs : Readings) : Prop := ∀ key r, rs.lookup key = some r → r.Regular

namespace Readings

variable {rs : Readings} {key : String}

theorem Regular.datum (h : rs.Regular) {fallback : Datum} (hfallback : fallback.isRegular = true) :
    (rs.datum key fallback).isRegular = true := by
  rw [Readings.datum]
  cases hr : rs.lookup key with
  | none => exact hfallback
  | some r => exact (h key r hr).datum

theorem Regular.node (h : rs.Regular) {n : Node} (hn : rs.node key = .ok n) :
    n.isRegular = true := by
  rw [Readings.node] at hn
  cases hr : rs.lookup key with
  | none => simp [hr] at hn
  | some r =>
    rw [hr] at hn
    exact (h key r hr).node n hn

theorem Regular.node? (h : rs.Regular) {o : Option Node} (ho : rs.node? key = .ok o) :
    optionRegular o = true := by
  rw [Readings.node?] at ho
  cases hr : rs.lookup key with
  | none =>
    rw [hr] at ho
    cases ho
    rfl
  | some r =>
    rw [hr] at ho
    dsimp only at ho
    split at ho
    · cases ho
      rfl
    · cases hn : r.node with
      | error e =>
        rw [hn] at ho
        cases ho
      | ok n =>
        rw [hn] at ho
        cases ho
        exact (h key r hr).node n hn

theorem Regular.body (h : rs.Regular) {n : Node} (hn : rs.body key = .ok n) :
    n.isRegular = true := by
  rw [Readings.body] at hn
  cases hr : rs.lookup key with
  | none =>
    rw [hr] at hn
    cases hn
    rfl
  | some r =>
    rw [hr] at hn
    dsimp only at hn
    split at hn
    · exact (h key r hr).node n hn
    · cases hn
      rfl

theorem Regular.nodes (h : rs.Regular) {ns : List Node} (hns : rs.nodes key = .ok ns) :
    allRegular ns = true := by
  rw [Readings.nodes] at hns
  cases hr : rs.lookup key with
  | none =>
    rw [hr] at hns
    cases hns
    rfl
  | some r =>
    rw [hr] at hns
    dsimp only at hns
    split at hns
    · exact (h key r hr).nodes ns hns
    · cases hns
      rfl

end Readings

theorem isRegular_of_build {rs : Readings} (h : rs.Regular) {k : NodeKind} {n : Node}
    (hn : build rs k = .ok n) : n.isRegular = true := by
  cases k with
  | comment | literal | access =>
    cases hn
    exact h.datum rfl
  | this =>
    cases hn
    rfl
  | value | call =>
    obtain ⟨base, hbase, hn⟩ := Fault.bind_eq_ok_iff.mp hn
    obtain ⟨steps, hsteps, hn⟩ := Fault.bind_eq_ok_iff.mp hn
    cases hn
    exact Bool.and_eq_true_iff.mpr ⟨h.node hbase, h.nodes hsteps⟩
  | obj | arr | block =>
    obtain ⟨ns, hns, hn⟩ := Fault.bind_eq_ok_iff.mp hn
    cases hn
    exact h.nodes hns
  | param =>
    obtain ⟨name, hname, hn⟩ := Fault.bind_eq_ok_iff.mp hn
    cases hn
    exact Bool.and_eq_true_iff.mpr ⟨h.node hname, h.datum rfl⟩
  | code =>
    obtain ⟨params, hparams, hn⟩ := Fault.bind_eq_ok_iff.mp hn
    obtain ⟨body, hbody, hn⟩ := Fault.bind_eq_ok_iff.mp hn
    cases hn
    exact Bool.and_eq_true_iff.mpr
      ⟨Bool.and_eq_true_iff.mpr ⟨h.nodes hparams, h.body hbody⟩, h.datum rfl⟩
  | assign =>
    obtain ⟨target, htarget, hn⟩ := Fault.bind_eq_ok_iff.mp hn
    obtain ⟨v, hv, hn⟩ := Fault.bind_eq_ok_iff.mp hn
    cases hn
    exact Bool.and_eq_true_iff.mpr ⟨h.node htarget, h.node hv⟩
  | classDecl =>
    obtain ⟨name, hname, hn⟩ := Fault.bind_eq_ok_iff.mp hn
    obtain ⟨parent, hparent, hn⟩ := Fault.bind_eq_ok_iff.mp hn
    obtain ⟨body, hbody, hn⟩ := Fault.bind_eq_ok_iff.mp hn
    cases hn
    exact Bool.and_eq_true_iff.mpr
      ⟨Bool.and_eq_true_iff.mpr ⟨h.node? hname, h.node? hparent⟩, h.body hbody⟩

theorem exists_build_of_ofReadings {rs : Readings} {n : Node} (h : ofReadings rs = .ok n) :
    ∃ k, build rs k = .ok n := by
  unfold ofReadings at h
  split at h
  · split at h
    next k _ => exact ⟨k, h⟩
    · cases h
  · cases h

mutual

theorem isRegular_of_ofData : (d : Datum) → d.isRegular = true →
    ∀ n, ofData d = .ok n → n.isRegular = true
  | .object fs, h, n, hn => by
    obtain ⟨k, hk⟩ := exists_build_of_ofReadings hn
    exact isRegular_of_build (regular_readFields fs (Bool.and_eq_true_iff.mp h).2) hk
  | .null, _, _, hn | .bool _, _, _, hn | .int _, _, _, hn | .float _, _, _, hn
  | .text _, _, _, hn | .date _, _, _, hn | .list _, _, _, hn => by cases hn

theorem allRegular_of_nodesOfData : (d : Datum) → d.isRegular = true →
    ∀ ns, nodesOfData d = .ok ns → allRegular ns = true
  | .list ds, h, ns, hns => allRegular_of_allOfData ds h ns hns
  | .null, _, _, hn | .bool _, _, _, hn | .int _, _, _, hn | .float _, _, _, hn
  | .text _, _, _, hn | .date _, _, _, hn | .object _, _, _, hn => by cases hn

theorem allRegular_of_allOfData : (ds : List Datum) → Datum.itemsRegular ds = true →
    ∀ ns, allOfData ds = .ok ns → allRegular ns = true
  | [], _, ns, hns => by
    cases hns
    rfl
  | d :: ds, h, ns, hns => by
    obtain ⟨hd, hds⟩ := Bool.and_eq_true_iff.mp h
    obtain ⟨m, hm, hns⟩ := Fault.bind_eq_ok_iff.mp hns
    obtain ⟨ms, hms, hns⟩ := Fault.bind_eq_ok_iff.mp hns
    cases hns
    exact Bool.and_eq_true_iff.mpr
      ⟨isRegular_of_ofData d hd m hm, allRegular_of_allOfData ds hds ms hms⟩

theorem regular_readFields : (fs : List (String × Datum)) → Datum.fieldsRegular fs = true →
    (readFields fs).Regular
  | [], _, key, r, hr => by cases hr
  | (k, d) :: fs, h, key, r, hr => by
    obtain ⟨hd, hfs⟩ := Bool.and_eq_true_iff.mp h
    rw [readFields, List.lookup_cons] at hr
    split at hr
    · cases hr
      exact ⟨hd, isRegular_of_ofData d hd, allRegular_of_nodesOfData d hd⟩
    · exact regular_readFields fs hfs key r hr

end

end Node

/-- A script has the same statements in both of its forms. -/
theorem Script.statements_toData (n : Node) :
    Script.statements (.data n.toData) = Script.statements (.tree n) := by
  obtain ⟨fs, hfs⟩ := Node.toData_eq n
  have hread := Node.ofData_toData n
  rw [hfs] at hread ⊢
  change (Node.ofData _ >>= rootStatements) = rootStatements n
  rw [hread]
  rfl

theorem ModuleStyle.statements_toData (style : ModuleStyle) (n : Node) :
    style.statements (.data n.toData) = style.statements (.tree n) := by
  rw [ModuleStyle.statements, ModuleStyle.statements, Script.statements_toData]

namespace Documenter

/-- Writing a tree loses nothing: what was written is read as the tree that it was written from, and
to document the one or the other comes to the same. -/
theorem toData_loses_nothing :
    (∀ (d : Datum) (n : Node), Node.ofData d = .ok n → Node.ofData n.toData = .ok n ∧
      (d.isRegular = true → n.same n = true)) ∧
    (∀ n : Node, Node.ofData n.toData = .ok n ∧ (n.isRegular = true → n.same n = true)) ∧
    ∀ (s : DocSettings) (style : ModuleStyle) (n : Node),
      documentModule s (some style) (.data n.toData) = documentModule s (some style) (.tree n) := by
  refine ⟨?_, ?_, ?_⟩
  · intro d n hn
    refine ⟨Node.ofData_toData n, ?_⟩
    intro hd
    exact Node.same_self n (Node.isRegular_of_ofData d hd n hn)
  · intro n
    exact ⟨Node.ofData_toData n, Node.same_self n⟩
  · intro s style n
    simp only [documentModule, documentStyled, ModuleStyle.statements_toData]

theorem toData_loses_nothing_class :
    let d : Datum := .object [("type", .text "Class"), ("body", .null),
      ("variable", .object [("type", .text "Literal"), ("value", .list [.int 1])])]
    let n : Node := .classDecl (some (.literal (.list [.int 1]))) none (.block [])
    Node.ofData d = .ok n ∧ Node.ofData n.toData = .ok n ∧ n.same n = true := by
  intro d n
  have hread : Node.ofData d = .ok n := rfl
  obtain ⟨hback, hsame⟩ := toData_loses_nothing.1 d n hread
  exact ⟨hread, hback, hsame (by decide)⟩

end Documenter

end DocHarvest
