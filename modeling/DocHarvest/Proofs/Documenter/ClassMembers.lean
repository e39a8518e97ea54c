import DocHarvest.Documenter
import DocHarvest.Proofs.Trace

/-!
# What becomes of the statements of a class body

The members of a class are read off its body by `Node.members`, each belongs to one group by its
target (`Node.group`), and the documents of a group are those of its members in order. Statements
that give no member and are neither functions nor comments leave a record. All three go by the form
of a statement alone (`Node.candidates`, `Node.methodGroup` and `Node.leavesRecord`).
-/
namespace DocHarvest

/-- Whether a text starts with another one; nothing but a text does. -/
def Datum.startsWith : Datum → Datum → Bool
  | .text name, .text mark => mark.toList.isPrefixOf name.toList
  | _, _ => false

namespace Node

def isObj : Node → Bool
  | obj _ => true
  | _ => false

/-- A function assigned to a target that is bound to the class. -/
def isBoundFunction : Node → Bool
  | assign target (.code _ _ _) => target.isThisBound
  | _ => false

/-- The members that a statement of a class body gives the class. -/
def members (n : Node) : List Node :=
  match n.unwrap with
  | obj entries => entries.filter isFunctionAssign
  | _ => [n].filter isBoundFunction

/-- The group of a member by the target it is assigned to. -/
def group (s : DocSettings) : Node → MethodGroup
  | assign target _ =>
    if target.isThisBound then .onClass
    else if target.memberName.startsWith s.privatePrefix then .hidden
    else .onInstance
  | _ => .onInstance

/-- A statement of a class body that is neither looked into nor a function nor a comment. -/
def isUnclassified (n : Node) : Bool := !n.unwrap.isObj && !n.isFunctionAssign && !n.isComment

theorem eq_value_of_isThisBound {n : Node} (h : n.isThisBound = true) :
    ∃ steps, n = value .this steps := by
  unfold isThisBound at h
  split at h
  · exact ⟨_, rfl⟩
  · exact absurd h Bool.false_ne_true

private theorem not_isObj {n : Node} (h : ∀ entries, n ≠ obj entries) : n.isObj = false := by
  cases n with
  | obj entries => exact absurd rfl (h entries)
  | _ => rfl

private theorem not_isComment {n : Node} (h : ∀ text, n ≠ comment text) :
    n.isComment = false := by
  cases n with
  | comment text => exact absurd rfl (h text)
  | _ => rfl

private theorem not_isFunctionAssign {n : Node}
    (h : ∀ target params body bound, n ≠ assign target (.code params body bound)) :
    n.isFunctionAssign = false := by
  unfold isFunctionAssign
  split
  next target params body bound => exact absurd rfl (h target params body bound)
  · rfl

theorem members_of_not_obj {n : Node} (h : ∀ entries, n.unwrap ≠ obj entries) :
    n.members = [n].filter isBoundFunction := by
  unfold members
  split
  next entries heq => exact absurd heq (h entries)
  · rfl

theorem members_of_isUnclassified {n : Node} (h : n.isUnclassified = true) : n.members = [] := by
  unfold members
  split
  case h_1 entries hobj => simp [isUnclassified, hobj, isObj] at h
  case h_2 =>
    have hassign : n.isFunctionAssign = false := by
      simp only [isUnclassified, Bool.and_eq_true, Bool.not_eq_true'] at h
      exact h.1.2
    have hbound : n.isBoundFunction = false := by
      unfold isBoundFunction
      split
      · cases hassign
      · rfl
    rw [List.filter_cons_of_neg (by simp [hbound]), List.filter_nil]

theorem eq_of_unwrap_obj {n : Node} {entries : List Node} (h : n.unwrap = obj entries) :
    n = obj entries ∨ n = value (obj entries) [] := by
  unfold unwrap at h
  split at h
  next base => exact .inr (by rw [h])
  · exact .inl h

/-- The methods that a statement gives the class, by its form: the functions among the entries of an
object literal, which may stand inside a value without steps, or the statement itself if it assigns
a function to a value of the self reference. -/
def candidates : Node → List Node
  | obj entries | value (obj entries) [] =>
    entries.filter fun entry =>
      match entry with
      | assign _ (code _ _ _) => true
      | _ => false
  | assign (value .this steps) (code params body flag) =>
    [assign (value .this steps) (code params body flag)]
  | _ => []

theorem candidates_eq (n : Node) : n.candidates = n.members := by
  unfold candidates
  split
  case h_1 => rfl
  case h_2 => rfl
  case h_3 => rfl
  case h_4 hobj hwrapped hassign =>
    have hnot : ∀ entries, n.unwrap ≠ obj entries := by
      intro entries hn
      exact (eq_of_unwrap_obj hn).elim (hobj entries) (hwrapped entries)
    have hbound : n.isBoundFunction = false := by
      unfold isBoundFunction
      split
      case h_1 target params body flag =>
        rw [← Bool.not_eq_true]
        intro hthis
        obtain ⟨steps, rfl⟩ := eq_value_of_isThisBound hthis
        exact hassign steps params body flag rfl
      case h_2 => rfl
    rw [members_of_not_obj hnot, List.filter_cons_of_neg (by simp [hbound]), List.filter_nil]

/-- The identifier that a target is or is the base of, empty if there is none. -/
def identifier : Node → Datum
  | literal d | value (literal d) _ => d
  | this | value this _ => .text "this"
  | _ => .text ""

theorem identifier_eq (n : Node) : n.identifier = n.memberName := by
  cases n with
  | value base steps => cases base <;> rfl
  | _ => rfl

/-- The group of a method by the form of its target: a value of the self reference, or else one of
which the identifier starts with the mark of hidden members or not. -/
def methodGroup (s : DocSettings) : Node → MethodGroup
  | assign (value .this _) _ => .onClass
  | assign target _ =>
    if target.identifier.startsWith s.privatePrefix then .hidden else .onInstance
  | _ => .onInstance

theorem methodGroup_eq (s : DocSettings) (n : Node) : n.methodGroup s = n.group s := by
  unfold methodGroup
  split
  case h_1 => rfl
  case h_2 target v hthis =>
    have hnot : ¬target.isThisBound = true := by
      intro h
      obtain ⟨steps, rfl⟩ := eq_value_of_isThisBound h
      exact hthis steps rfl
    rw [group, if_neg hnot, identifier_eq]
  case h_3 _ hassign =>
    cases n with
    | assign target v => exact absurd rfl (hassign target v)
    | _ => rfl

/-- Whether a statement leaves a record, by its form: it is no object literal, also not inside a
value without steps, no function that is assigned, and no comment. -/
def leavesRecord : Node → Bool
  | obj _ | value (obj _) [] | assign _ (code _ _ _) | comment _ => false
  | _ => true

theorem leavesRecord_eq (n : Node) : n.leavesRecord = n.isUnclassified := by
  unfold leavesRecord
  split
  case h_1 => rfl
  case h_2 => rfl
  case h_3 => rfl
  case h_4 => rfl
  case h_5 hobj hwrapped hassign hcomment =>
    have hunwrap : n.unwrap.isObj = false := by
      apply not_isObj
      intro entries hn
      exact (eq_of_unwrap_obj hn).elim (hobj entries) (hwrapped entries)
    rw [isUnclassified, hunwrap, not_isFunctionAssign hassign, not_isComment hcomment]
    rfl

/-- The body of a class: of a declaration, which may be assigned and then stand inside a value
without steps. -/
inductive HasBody : Node → List Node → Prop
  | declared (name parent : Option Node) (body : List Node) :
      HasBody (classDecl name parent (block body)) body
  | assigned (target : Node) (name parent : Option Node) (body : List Node) :
      HasBody (assign target (classDecl name parent (block body))) body
  | wrapped (target : Node) (name parent : Option Node) (body : List Node) :
      HasBody (assign target (value (classDecl name parent (block body)) [])) body

theorem joinTexts_cons_of_ok {sep rest : String} {parts : List (Option String)} (first : String)
    (h : joinTexts sep parts = .ok rest) :
    joinTexts sep (some first :: parts) =
      .ok (if parts.isEmpty then first else first ++ sep ++ rest) := by
  unfold joinTexts at h ⊢
  split at h
  case isFalse => cases h
  case isTrue hall =>
    cases h
    cases parts with
    | nil => rfl
    | cons part parts =>
      obtain ⟨t, rfl⟩ : ∃ t, part = some t := Option.isSome_iff_exists.mp (by simp_all)
      have hrest : (some t :: parts).filterMap id ≠ [] := by simp
      have hcons : (some first :: some t :: parts).filterMap id =
          first :: (some t :: parts).filterMap id := rfl
      rw [if_pos (by simpa using hall), if_neg (by simp), hcons,
        String.intercalate_cons_of_ne_nil hrest]

end Node

namespace Documenter

open Traced

/-- The name of a bound method follows the self reference in the dotted name of its target. -/
theorem boundName_of_ok {steps : List Node} {name : Datum}
    (h : boundName (.value .this steps) = .ok name) :
    ∃ n, name = .text n ∧ (steps = [] → n = "") ∧ (Node.value .this steps).qualifiedName =
      .ok (.text (if steps.isEmpty then "this" else "this" ++ "." ++ n)) := by
  obtain ⟨parts, hparts, h⟩ := Fault.bind_eq_ok_iff.mp h
  obtain ⟨n, hn, h⟩ := Fault.bind_eq_ok_iff.mp h
  cases h
  have hempty : parts.isEmpty = steps.isEmpty := by
    cases steps with
    | nil =>
      cases hparts
      rfl
    | cons step steps =>
      rw [List.mapM_cons] at hparts
      obtain ⟨first, -, hparts⟩ := Fault.bind_eq_ok_iff.mp hparts
      obtain ⟨rest, -, hparts⟩ := Fault.bind_eq_ok_iff.mp hparts
      cases hparts
      rfl
  have hjoin := Node.joinTexts_cons_of_ok "this" hn
  rw [hempty] at hjoin
  refine ⟨n, rfl, ?_, ?_⟩
  · rintro rfl
    cases hparts
    exact (Except.ok.inj hn).symm
  rw [Node.qualifiedName]
  exact Fault.bind_eq_ok_iff.mpr ⟨.text "this", rfl, Fault.bind_eq_ok_iff.mpr ⟨parts, hparts,
    Fault.bind_eq_ok_iff.mpr ⟨_, hjoin, rfl⟩⟩⟩

theorem documentCode_of_ok {s : DocSettings} {name : Datum} {params : List Node} {body : Node}
    {d : FunctionDoc} (h : (documentCode s name params body).result = .ok d) :
    d.name = name ∧
      ∀ other, (documentCode s other params body).result = .ok { d with name := other } := by
  obtain ⟨statements, hs, h⟩ := result_bind_eq_ok_iff.mp h
  obtain ⟨docstring, hd, h⟩ := result_bind_eq_ok_iff.mp h
  obtain ⟨rendered, hr, h⟩ := result_bind_eq_ok_iff.mp h
  obtain ⟨annotations, ha, h⟩ := result_bind_eq_ok_iff.mp h
  cases h
  refine ⟨rfl, fun other => ?_⟩
  exact result_bind_eq_ok_iff.mpr ⟨_, hs, result_bind_eq_ok_iff.mpr ⟨_, hd,
    result_bind_eq_ok_iff.mpr ⟨_, hr, result_bind_eq_ok_iff.mpr ⟨_, ha, rfl⟩⟩⟩⟩

theorem isHidden_of_ok {s : DocSettings} {target : Node} {hidden : Bool}
    (h : isHidden s target = .ok hidden) :
    target.memberName.startsWith s.privatePrefix = hidden := by
  unfold isHidden at h
  split at h
  next name mark hname hmark =>
    rw [hname, hmark]
    exact Except.ok.inj h
  · cases h
  · cases h

/-- How the document of a member comes from that of its assignment: it is the same for a member of
the instances, and a member of the class is named without the self reference. -/
inductive DocumentedAs (s : DocSettings) : Node → FunctionDoc → Prop
  | own {c : Node} {d : FunctionDoc} (hgroup : c.group s ≠ .onClass)
      (h : (documentFunction s c).result = .ok d) : DocumentedAs s c d
  | bound {steps params : List Node} {body : Node} {flag : Datum} {whole : FunctionDoc}
      {name : String}
      (h : (documentFunction s (.assign (.value .this steps) (.code params body flag))).result =
        .ok whole)
      (hname : steps ≠ [] →
        (Node.value .this steps).qualifiedName = .ok (.text ("this." ++ name)))
      (hempty : steps = [] → name = "") :
      DocumentedAs s (.assign (.value .this steps) (.code params body flag))
        { whole with name := .text name }

theorem documentMember_of_ok {s : DocSettings} {c : Node} {m : MethodGroup × FunctionDoc}
    (h : (documentMember s c).result = .ok m) : m.1 = c.group s ∧ DocumentedAs s c m.2 := by
  unfold documentMember at h
  split at h
  case h_2 => cases h
  case h_1 target params body flag =>
    split at h
    case isTrue hthis =>
      obtain ⟨steps, rfl⟩ := Node.eq_value_of_isThisBound hthis
      obtain ⟨name, hbn, h⟩ := result_bind_eq_ok_iff.mp h
      obtain ⟨d, hd, h⟩ := result_bind_eq_ok_iff.mp h
      cases h
      obtain ⟨n, rfl, hempty, hq⟩ := boundName_of_ok hbn
      obtain ⟨hdname, hrename⟩ := documentCode_of_ok hd
      refine ⟨rfl, ?_⟩
      have hwhole : (documentFunction s
          (.assign (.value .this steps) (.code params body flag))).result =
          .ok { d with name := .text (if steps.isEmpty then "this" else "this" ++ "." ++ n) } :=
        result_bind_eq_ok_iff.mpr ⟨_, hq, hrename _⟩
      have hname : steps ≠ [] →
          (Node.value .this steps).qualifiedName = .ok (.text ("this." ++ n)) := by
        intro hsteps
        rw [hq, if_neg (by simpa using hsteps)]
        rfl
      have hbound := DocumentedAs.bound hwhole hname hempty
      rw [← hdname] at hbound
      exact hbound
    case isFalse hthis =>
      obtain ⟨hidden, hhidden, h⟩ := result_bind_eq_ok_iff.mp h
      obtain ⟨d, hd, h⟩ := result_bind_eq_ok_iff.mp h
      cases h
      have hgroup : (Node.assign target (.code params body flag)).group s =
          if hidden then .hidden else .onInstance := by
        rw [Node.group, if_neg hthis, isHidden_of_ok hhidden]
      refine ⟨hgroup.symm, .own ?_ hd⟩
      rw [hgroup]
      cases hidden <;> decide

/-- The document that a member gets. -/
def memberDoc (s : DocSettings) (c : Node) : FunctionDoc :=
  match (documentMember s c).result with
  | .ok m => m.2
  | .error _ => default

theorem eq_memberDoc_of_ok {s : DocSettings} {c : Node} {m : MethodGroup × FunctionDoc}
    (h : (documentMember s c).result = .ok m) :
    (c.group s, memberDoc s c) = m ∧ DocumentedAs s c (memberDoc s c) := by
  obtain ⟨hgroup, hdoc⟩ := documentMember_of_ok h
  have hmember : memberDoc s c = m.2 := by rw [memberDoc, h]
  rw [hmember, ← hgroup]
  exact ⟨rfl, hdoc⟩

/-- What the record of a skipped statement starts with. -/
def skipNotice : String := "Skipping unclassified class body statement: "

/-- The record of a statement that nothing is made of. -/
def skipRecord (n : Node) : Record :=
  ⟨Channel.documenter.name, Level.debug, skipNotice ++ n.typeName⟩

theorem documentStatement_eq (s : DocSettings) (n : Node) :
    documentStatement s n =
      if n.isUnclassified then ⟨[skipRecord n], .ok []⟩
      else n.members.mapM (documentMember s) := by
  unfold documentStatement
  split
  case h_1 entries hobj =>
    rw [Node.isUnclassified, Node.members, hobj]
    rfl
  case h_2 hobj =>
    rw [Node.members_of_not_obj hobj]
    rw [Node.isUnclassified, Node.not_isObj hobj]
    split
    case h_1 target params body flag =>
      split
      case isTrue hthis =>
        have hbound : (Node.assign target (.code params body flag)).isBoundFunction = true := hthis
        rw [List.filter_cons_of_pos hbound, List.filter_nil, List.mapM_cons, List.mapM_nil]
        simp only [pure_bind]
        rfl
      case isFalse hthis =>
        have hbound : ¬(Node.assign target (.code params body flag)).isBoundFunction = true := hthis
        rw [List.filter_cons_of_neg hbound]
        rfl
    case h_2 => rfl
    case h_3 hassign hcomment =>
      rw [Node.not_isFunctionAssign hassign, Node.not_isComment hcomment]
      rfl

theorem documentStatement_of_ok {s : DocSettings} {n : Node}
    {ms : List (MethodGroup × FunctionDoc)} (h : (documentStatement s n).result = .ok ms) :
    n.members.map (fun c => (c.group s, memberDoc s c)) = ms ∧
      ∀ c ∈ n.members, DocumentedAs s c (memberDoc s c) := by
  rw [documentStatement_eq] at h
  split at h
  case isTrue hskip =>
    cases h
    rw [Node.members_of_isUnclassified hskip]
    exact ⟨rfl, by simp⟩
  case isFalse => exact mapM_eq_map (fun _ _ => eq_memberDoc_of_ok) h

/-- Whether a record is one of a skipped statement. -/
def isSkip (r : Record) : Bool :=
  r.logger == Channel.documenter.name && skipNotice.toList.isPrefixOf r.message.toList

theorem isSkip_skipRecord (n : Node) : isSkip (skipRecord n) = true := by
  simp [isSkip, skipRecord, String.toList_append]

/-- The records that reading annotations makes. -/
def OfAnnotations (r : Record) : Prop := r.logger = Channel.annotations.name

theorem not_isSkip_of_annotations {r : Record} (h : OfAnnotations r) : isSkip r = false := by
  rw [isSkip, h]
  rfl

theorem read_logsOnly (marker raw : Datum) :
    (Annotations.read marker raw).LogsOnly OfAnnotations := by
  unfold Annotations.read
  split
  · exact logsOnly_pure none
  · refine LogsOnly.bind ?_ fun _ => logsOnly_pure _
    intro r hr
    rw [List.mem_singleton.mp hr]
    rfl
  · exact logsOnly_fail _
  · exact logsOnly_fail _

theorem documentCode_logsOnly (s : DocSettings) (name : Datum) (params : List Node) (body : Node) :
    (documentCode s name params body).LogsOnly OfAnnotations :=
  (logsOnly_liftM _).bind fun _ => (logsOnly_liftM _).bind fun _ => (logsOnly_liftM _).bind fun _ =>
    (read_logsOnly _ _).bind fun _ => logsOnly_pure _

theorem documentFunction_logsOnly (s : DocSettings) (c : Node) :
    (documentFunction s c).LogsOnly OfAnnotations := by
  unfold documentFunction
  split
  · exact (logsOnly_liftM _).bind fun _ => documentCode_logsOnly s _ _ _
  · exact logsOnly_fail _

theorem documentMember_logsOnly (s : DocSettings) (c : Node) :
    (documentMember s c).LogsOnly OfAnnotations := by
  unfold documentMember
  split
  case h_2 => exact logsOnly_fail _
  case h_1 target params body flag =>
    split
    · exact (logsOnly_liftM _).bind fun _ =>
        (documentCode_logsOnly s _ _ _).bind fun _ => logsOnly_pure _
    · exact (logsOnly_liftM _).bind fun _ =>
        (documentFunction_logsOnly s _).bind fun _ => logsOnly_pure _

theorem skips_documentStatement (s : DocSettings) (n : Node) :
    (documentStatement s n).log.filter isSkip =
      if n.isUnclassified then [skipRecord n] else [] := by
  rw [documentStatement_eq]
  split
  case isTrue => rw [List.filter_cons_of_pos (isSkip_skipRecord n), List.filter_nil]
  case isFalse =>
    apply List.filter_eq_nil_iff.mpr
    intro r hr
    have hkind := logsOnly_mapM (documentMember_logsOnly s) n.members r hr
    simp [not_isSkip_of_annotations hkind]

theorem not_isSkip_unnamed (level : Int) (typeName : String) :
    isSkip ⟨Channel.documenter.name, level, "Unnamed superclass expression: " ++ typeName⟩ =
      false := by
  rw [isSkip, String.toList_append]
  rfl

theorem skips_parentName (parent : Option Node) : (parentName parent).log.filter isSkip = [] := by
  unfold parentName
  split
  · rfl
  next parent =>
    dsimp only
    split
    · rfl
    · exact List.filter_cons_of_neg (by simp [not_isSkip_unnamed])
    · exact List.filter_cons_of_neg (by simp [not_isSkip_unnamed])
    · rfl

theorem inGroup_map (g : MethodGroup) (group : Node → MethodGroup) (document : Node → FunctionDoc)
    (cs : List Node) :
    inGroup g (cs.map fun c => (group c, document c)) =
      (cs.filter fun c => group c = g).map document := by
  rw [inGroup, List.filter_map, List.map_map]
  rfl

theorem groups_perm (group : Node → MethodGroup) (cs : List Node) :
    ((cs.filter fun c => group c = .onClass) ++ ((cs.filter fun c => group c = .hidden) ++
      (cs.filter fun c => group c = .onInstance))).Perm cs := by
  induction cs with
  | nil => exact .nil
  | cons c cs ih =>
    cases hc : group c with
    | onClass =>
      simp only [List.filter_cons, hc, decide_true, reduceCtorEq, decide_false, if_true,
        Bool.false_eq_true, if_false, List.cons_append]
      exact ih.cons c
    | hidden =>
      simp only [List.filter_cons, hc, decide_true, reduceCtorEq, decide_false, if_true,
        Bool.false_eq_true, if_false, List.cons_append]
      exact List.perm_middle.trans (ih.cons c)
    | onInstance =>
      simp only [List.filter_cons, hc, decide_true, reduceCtorEq, decide_false, if_true,
        Bool.false_eq_true, if_false]
      rw [← List.append_assoc] at ih ⊢
      exact List.perm_middle.trans (ih.cons c)

theorem skips_statements (s : DocSettings) (body : List Node) :
    (body.flatMap fun n => (documentStatement s n).log).filter isSkip =
      (body.filter Node.isUnclassified).map skipRecord := by
  induction body with
  | nil => rfl
  | cons n body ih =>
    rw [List.flatMap_cons, List.filter_append, skips_documentStatement, ih]
    cases hn : n.isUnclassified with
    | true => rw [List.filter_cons_of_pos hn]; rfl
    | false => rw [List.filter_cons_of_neg (by simp [hn])]; rfl

theorem eq_block_of_statements {body : Node} {ss : List Node} (h : body.statements = .ok ss) :
    body = .block ss := by
  unfold Node.statements at h
  split at h
  · rw [Except.ok.inj h]
  · cases h

theorem documentClass_of_ok {s : DocSettings} {n : Node} {doc : ClassDoc}
    (h : (documentClass s n).result = .ok doc) :
    ∃ name parent body ms, classOf n = .classDecl name parent (.block body) ∧
      (body.mapM (documentStatement s)).result = .ok ms ∧
      doc.staticMethods = inGroup .onClass ms.flatten ∧
      doc.privateMethods = inGroup .hidden ms.flatten ∧
      doc.instanceMethods = inGroup .onInstance ms.flatten ∧
      (documentClass s n).log =
        (body.mapM (documentStatement s)).log ++ (parentName parent).log := by
  unfold documentClass at h ⊢
  split at h
  case h_2 => cases h
  case h_1 name parent body hclass =>
    obtain ⟨statements, hs, h⟩ := result_bind_eq_ok_iff.mp h
    obtain ⟨ms, hm, h⟩ := result_bind_eq_ok_iff.mp h
    obtain ⟨nameData, hn, h⟩ := result_bind_eq_ok_iff.mp h
    obtain ⟨docstring, hd, h⟩ := result_bind_eq_ok_iff.mp h
    obtain ⟨parentData, hp, h⟩ := result_bind_eq_ok_iff.mp h
    cases h
    cases eq_block_of_statements hs
    refine ⟨name, parent, statements, ms, hclass, hm, rfl, rfl, rfl, ?_⟩
    rw [log_bind_of_ok hs, log_bind_of_ok hm, log_bind_of_ok hn, log_bind_of_ok hd,
      log_bind_of_ok hp]
    simp only [log_liftM, log_pure, List.nil_append, List.append_nil]

theorem hasBody_of_classOf {n : Node} {name parent : Option Node} {body : List Node}
    (h : classOf n = .classDecl name parent (.block body)) : n.HasBody body := by
  unfold classOf at h
  split at h
  next target v =>
    unfold Node.unwrap at h
    split at h
    · rw [h]
      exact .wrapped target name parent body
    · rw [h]
      exact .assigned target name parent body
  · rw [h]
    exact .declared name parent body

/-- A class document and the records of its making account for all statements of the body: the
methods are the documents of the candidates, each in the group of its target and in the order of the
body, and every statement that is skipped has its record. -/
structure AccountsFor (s : DocSettings) (body : List Node) (document : Node → FunctionDoc)
    (doc : ClassDoc) (log : List Record) : Prop where
  documented : ∀ c ∈ body.flatMap Node.candidates, DocumentedAs s c (document c)
  onClass : doc.staticMethods =
    ((body.flatMap Node.candidates).filter fun c => c.methodGroup s = .onClass).map document
  hidden : doc.privateMethods =
    ((body.flatMap Node.candidates).filter fun c => c.methodGroup s = .hidden).map document
  onInstance : doc.instanceMethods =
    ((body.flatMap Node.candidates).filter fun c => c.methodGroup s = .onInstance).map document
  once : (doc.staticMethods ++ (doc.privateMethods ++ doc.instanceMethods)).Perm
    ((body.flatMap Node.candidates).map document)
  skipped : log.filter isSkip = (body.filter Node.leavesRecord).map skipRecord

theorem documentClass_accounts_for_body {s : DocSettings} {n : Node} {doc : ClassDoc}
    (h : (documentClass s n).result = .ok doc) :
    ∃ body document, n.HasBody body ∧
      AccountsFor s body document doc (documentClass s n).log := by
  obtain ⟨name, parent, body, ms, hclass, hms, hstatic, hprivate, hinstance, hlog⟩ :=
    documentClass_of_ok h
  obtain ⟨hmap, hdoc⟩ := mapM_eq_map (fun _ _ => documentStatement_of_ok) hms
  have hcandidates : body.flatMap Node.candidates = body.flatMap Node.members :=
    congrArg body.flatMap (funext Node.candidates_eq)
  have hflatten : ms.flatten =
      (body.flatMap Node.members).map fun c => (c.group s, memberDoc s c) := by
    rw [← hmap, List.map_flatMap, List.flatMap_def]
  rw [hflatten, inGroup_map, ← hcandidates] at hstatic hprivate hinstance
  simp only [← Node.methodGroup_eq] at hstatic hprivate hinstance
  refine ⟨body, memberDoc s, hasBody_of_classOf hclass, ?_, hstatic, hprivate, hinstance, ?_, ?_⟩
  · intro c hc
    rw [hcandidates] at hc
    obtain ⟨statement, hstatement, hc⟩ := List.mem_flatMap.mp hc
    exact hdoc statement hstatement c hc
  · rw [hstatic, hprivate, hinstance, ← List.map_append, ← List.map_append]
    exact (groups_perm (Node.methodGroup s) _).map _
  · rw [hlog, (mapM_of_ok hms).2, List.filter_append, skips_statements, skips_parentName,
      List.append_nil, funext Node.leavesRecord_eq]

/-- A body with two object literals, of which one stands inside a value without steps, and with a
third one inside two of them, which is skipped. -/
theorem documentClass_accounts_for_body_view :
    let code := Node.code [] (.block []) (.bool false)
    let body := [.comment (.text "A view."),
      .value (.obj [.assign (.value (.literal (.text "render")) []) code,
        .assign (.value .this [.access (.text "create")]) code,
        .assign (.literal (.text "width")) (.literal (.text "3")),
        .assign (.value (.literal (.text "_wire")) [.access (.text "up")]) code]) [],
      .assign (.value .this [.access (.text "util"), .access (.text "wrap")]) code,
      .assign (.value (.literal (.text "local")) []) code,
      .obj [.assign (.literal (.text "_off")) code],
      .value (.value (.obj [.assign (.literal (.text "lost")) code]) []) [],
      .call (.literal (.text "mixin")) []]
    let n := Node.assign (.literal (.text "View"))
      (.value (.classDecl (some (.literal (.text "View"))) none (.block body)) [])
    let plain (name : String) : FunctionDoc :=
      { name := .text name, docstring := .null, params := .list [], annotations := none
        rawComment := .null, escapeMarker := .text "#" }
    ∃ doc, (documentClass {} n).result = .ok doc ∧
      doc.staticMethods = [plain "create", plain "util.wrap"] ∧
      doc.privateMethods = [plain "_wire.up", plain "_off"] ∧
      doc.instanceMethods = [plain "render"] ∧
      (documentClass {} n).log.filter isSkip =
        ["Skipping unclassified class body statement: Value",
          "Skipping unclassified class body statement: Call"].map
            (⟨"coffeedoc.generators.documenter", 10, ·⟩) ∧
      ∃ body' document, n.HasBody body' ∧
        AccountsFor {} body' document doc (documentClass {} n).log := by
  intro code body n plain
  exact ⟨_, rfl, rfl, rfl, rfl, by decide +kernel, documentClass_accounts_for_body rfl⟩

end Documenter

end DocHarvest
