import DocHarvest.Module.Style
import DocHarvest.Proofs.Trace

/-!
# The define calls of an AMD module

A module is made up by the first `define` call of its script (`Node.isDefine`): its statements are
those of the callback, with the call itself at the end (`statements_of_ok`). Its dependencies are
read off the first `define` call among these, and that need not be the one at the end.
-/
namespace DocHarvest

theorem Datum.beq_text_iff {d : Datum} {s : String} : (d == .text s) = true ↔ d = .text s := by
  change same d (.text s) = true ↔ _
  cases d <;> simp [same, sameAsInt, sameAsFloat, whole?]

namespace Node

def isNamed (name : String) (n : Node) : Bool :=
  n.isNameLike && match n.qualifiedName with
    | .ok d => d == .text name
    | .error _ => false

def isCode : Node → Bool
  | code _ _ _ => true
  | _ => false

/-- A call of `define` whose last argument is a function. -/
def isDefine (n : Node) : Bool :=
  match n.unwrap with
  | call callee args => callee.isNamed "define" && (args.getLast?.map unwrap).any isCode
  | _ => false

/-- The statements of the function that is a call's last argument. -/
def callbackStatements (n : Node) : List Node :=
  match n.unwrap with
  | call _ args =>
    match args.getLast?.map unwrap with
    | some (code _ (block ss) _) => ss
    | _ => []
  | _ => []

theorem isNamed_iff {name : String} {n : Node} :
    n.isNamed name = true ↔ n.isNameLike = true ∧ n.qualifiedName = .ok (.text name) := by
  rw [isNamed, Bool.and_eq_true]
  cases hname : n.qualifiedName with
  | error e => simp
  | ok d => simp [Datum.beq_text_iff]

theorem eq_code_of_isCode {n : Node} (h : n.isCode = true) :
    ∃ params body bound, n = code params body bound := by
  cases n with
  | code params body bound => exact ⟨params, body, bound, rfl⟩
  | _ => cases h

theorem isDefine_iff {n : Node} :
    n.isDefine = true ↔ ∃ callee args params body bound, n.unwrap = call callee args ∧
      callee.isNamed "define" = true ∧
      args.getLast?.map unwrap = some (code params body bound) := by
  constructor
  · intro h
    unfold isDefine at h
    split at h
    case h_2 => cases h
    case h_1 callee args hcall =>
      obtain ⟨hnamed, hlast⟩ := Bool.and_eq_true_iff.mp h
      cases hl : args.getLast?.map unwrap with
      | none => simp [hl] at hlast
      | some last =>
        rw [hl] at hlast
        obtain ⟨params, body, bound, rfl⟩ := eq_code_of_isCode hlast
        exact ⟨callee, args, params, body, bound, hcall, hnamed, hl⟩
  · rintro ⟨callee, args, params, body, bound, hcall, hnamed, hlast⟩
    rw [isDefine, hcall]
    simp only [hnamed, hlast, Bool.true_and]
    rfl

theorem unwrap_call {n callee : Node} {args : List Node} (h : n.unwrap = call callee args) :
    n.unwrap.unwrap = n.unwrap := by
  rw [h]
  rfl

theorem isDefine_unwrap {n : Node} (h : n.isDefine = true) : n.unwrap.isDefine = true := by
  obtain ⟨callee, args, params, body, bound, hcall, hnamed, hlast⟩ := isDefine_iff.mp h
  exact isDefine_iff.mpr
    ⟨callee, args, params, body, bound, (unwrap_call hcall).trans hcall, hnamed, hlast⟩

theorem not_isDefine_of_isComment {n : Node} (h : n.isComment = true) :
    n.isDefine = false := by
  cases n with
  | comment text => rfl
  | _ => cases h

end Node

theorem callArgs?_eq_some_iff {name : String} {n : Node} {args : List Node} :
    callArgs? name n = .ok (some args) ↔
      ∃ callee, n = .call callee args ∧ args ≠ [] ∧ callee.isNamed name = true := by
  constructor
  · intro h
    unfold callArgs? at h
    split at h
    case h_2 => cases h
    case h_1 callee args' =>
      split at h
      case isTrue => cases h
      case isFalse hlook =>
        simp only [Bool.or_eq_true, List.isEmpty_iff, Bool.not_eq_true', not_or,
          Bool.not_eq_false] at hlook
        obtain ⟨d, hd, h⟩ := Fault.bind_eq_ok_iff.mp h
        have hname : (d == .text name) = true ∧ args' = args := by
          cases hb : d == .text name with
          | false => simp [hb, pure, Except.pure] at h
          | true => simpa [hb, pure, Except.pure] using h
        obtain ⟨hname, rfl⟩ := hname
        rw [Datum.beq_text_iff.mp hname] at hd
        exact ⟨callee, rfl, hlook.1, Node.isNamed_iff.mpr ⟨hlook.2, hd⟩⟩
  · rintro ⟨callee, rfl, hargs, hnamed⟩
    obtain ⟨hlike, hname⟩ := Node.isNamed_iff.mp hnamed
    have hlook : ¬(args.isEmpty || !callee.isNameLike) = true := by
      simp [hargs, hlike]
    rw [callArgs?, if_neg hlook, hname]
    change Except.ok (if (Datum.text name == .text name) = true then some args else none) = _
    rw [if_pos (Datum.beq_text_iff.mpr rfl)]

namespace RequireJs

theorem define?_eq_some_iff {n : Node} {d : Define} :
    define? n = .ok (some d) ↔ ∃ callee bound, n.unwrap = .call callee d.args ∧
      d.call = n.unwrap ∧ callee.isNamed "define" = true ∧
      d.args.getLast?.map Node.unwrap = some (.code d.params d.body bound) := by
  constructor
  · intro h
    obtain ⟨r, hr, h⟩ := Fault.bind_eq_ok_iff.mp h
    cases r with
    | none => cases h
    | some args =>
      obtain ⟨callee, hcall, -, hnamed⟩ := callArgs?_eq_some_iff.mp hr
      dsimp only at h
      split at h
      case h_2 => cases h
      case h_1 params body bound hlast =>
        cases h
        exact ⟨callee, bound, hcall, rfl, hnamed, hlast⟩
  · rintro ⟨callee, bound, hcall, hd, hnamed, hlast⟩
    have hargs : d.args ≠ [] := by
      intro hnil
      simp [hnil] at hlast
    have hfound := callArgs?_eq_some_iff.mpr ⟨callee, hcall, hargs, hnamed⟩
    refine Fault.bind_eq_ok_iff.mpr ⟨some d.args, hfound, ?_⟩
    dsimp only
    rw [hlast, ← hd]
    rfl

theorem exists_define?_of_isDefine {n : Node} (h : n.isDefine = true) :
    ∃ d, define? n = .ok (some d) := by
  obtain ⟨callee, args, params, body, bound, hcall, hnamed, hlast⟩ := Node.isDefine_iff.mp h
  exact ⟨⟨n.unwrap, args, params, body⟩,
    define?_eq_some_iff.mpr ⟨callee, bound, hcall, rfl, hnamed, hlast⟩⟩

theorem isSome_of_define? {n : Node} {r : Option Define} (h : define? n = .ok r) :
    r.isSome = n.isDefine := by
  cases r with
  | some d =>
    obtain ⟨callee, bound, hcall, -, hnamed, hlast⟩ := define?_eq_some_iff.mp h
    exact (Node.isDefine_iff.mpr ⟨_, _, _, _, _, hcall, hnamed, hlast⟩).symm
  | none =>
    cases hn : n.isDefine with
    | false => rfl
    | true =>
      obtain ⟨d, hd⟩ := exists_define?_of_isDefine hn
      rw [h] at hd
      cases hd

theorem firstDefine_of_ok {nodes : List Node} {r : Option Define}
    (h : firstDefine nodes = .ok r) :
    (nodes.find? Node.isDefine).map define? = r.map fun d => .ok (some d) := by
  induction nodes with
  | nil =>
    cases h
    rfl
  | cons n nodes ih =>
    obtain ⟨found, hfound, h⟩ := Fault.bind_eq_ok_iff.mp h
    have hn := isSome_of_define? hfound
    cases found with
    | some d =>
      cases h
      rw [List.find?_cons_of_pos hn.symm]
      exact congrArg some hfound
    | none =>
      rw [List.find?_cons_of_neg (by simp [← hn])]
      exact ih h

theorem firstDefine_singleton {n : Node} {d : Define} (h : define? n = .ok (some d)) :
    firstDefine [n] = .ok (some d) :=
  Fault.bind_eq_ok_iff.mpr ⟨some d, h, rfl⟩

theorem callbackStatements_of_define? {n : Node} {d : Define} {ss : List Node}
    (h : define? n = .ok (some d)) (hss : d.body.statements = .ok ss) :
    n.callbackStatements = ss := by
  obtain ⟨callee, bound, hcall, -, -, hlast⟩ := define?_eq_some_iff.mp h
  have hbody : d.body = .block ss := by
    cases hb : d.body with
    | block statements =>
      rw [hb] at hss
      cases hss
      rfl
    | _ =>
      rw [hb] at hss
      cases hss
  rw [Node.callbackStatements, hcall]
  dsimp only
  rw [hlast, hbody]

/-- What the statements of an AMD module are made of. -/
theorem statements_of_ok {top ns : List Node}
    (h : (ModuleStyle.requireJs.statements (.tree (.block top))).result = .ok ns) :
    ns = match top.find? Node.isDefine with
      | some n => top.head?.toList.filter Node.isComment ++ n.callbackStatements ++ [n.unwrap]
      | none => top := by
  obtain ⟨top', htop, h⟩ := Traced.result_bind_eq_ok_iff.mp h
  cases htop
  obtain ⟨r, hr, h⟩ := Traced.result_bind_eq_ok_iff.mp h
  have hfirst := firstDefine_of_ok hr
  cases r with
  | none =>
    rw [Option.map_none, Option.map_eq_none_iff] at hfirst
    rw [hfirst]
    exact (Except.ok.inj h).symm
  | some d =>
    obtain ⟨n, hn, hd⟩ := Option.map_eq_some_iff.mp hfirst
    obtain ⟨ss, hss, h⟩ := Fault.bind_eq_ok_iff.mp h
    obtain ⟨callee, bound, -, hcall, -, -⟩ := define?_eq_some_iff.mp hd
    rw [hn]
    dsimp only
    rw [callbackStatements_of_define? hd hss, ← hcall]
    exact (Except.ok.inj h).symm

theorem find?_isDefine_module {opening inner : List Node} {n : Node}
    (hopening : ∀ m ∈ opening, m.isComment = true) (hn : n.isDefine = true) :
    (opening ++ inner ++ [n.unwrap]).find? Node.isDefine =
      some ((inner.find? Node.isDefine).getD n.unwrap) := by
  have hnone : opening.find? Node.isDefine = none := by
    apply List.find?_eq_none.mpr
    intro m hm
    simp [Node.not_isDefine_of_isComment (hopening m hm)]
  have hlast : [n.unwrap].find? Node.isDefine = some n.unwrap :=
    List.find?_cons_of_pos (Node.isDefine_unwrap hn)
  rw [List.find?_append, List.find?_append, hnone, hlast, Option.none_or]
  cases inner.find? Node.isDefine <;> rfl

theorem dependencies_of_find? {ns : List Node} {n : Node} {deps : List Dependency}
    (hn : ns.find? Node.isDefine = some n) (h : dependencies ns = .ok deps) :
    dependencies [n] = .ok deps := by
  obtain ⟨r, hr, h⟩ := Fault.bind_eq_ok_iff.mp h
  have hfirst := firstDefine_of_ok hr
  rw [hn] at hfirst
  cases r with
  | none => cases hfirst
  | some d =>
    have hd : define? n = .ok (some d) := Option.some.inj hfirst
    exact Fault.bind_eq_ok_iff.mpr ⟨some d, firstDefine_singleton hd, h⟩

end RequireJs

namespace ModuleStyle

theorem isComment_of_opening {top : List Node} :
    ∀ m ∈ top.head?.toList.filter Node.isComment, m.isComment = true := by
  intro m hm
  exact (List.mem_filter.mp hm).2

/-- The dependencies of an AMD module are those of the first `define` call in the callback of the
one that makes up the module, if there is any, so they are the module's own exactly if that makes no
difference. -/
theorem dependencies_own_iff {top ns : List Node} {n : Node} {deps : List Dependency}
    (hn : top.find? Node.isDefine = some n)
    (hns : (requireJs.statements (.tree (.block top))).result = .ok ns)
    (hdeps : requireJs.dependencies ns = .ok deps) :
    requireJs.dependencies [(n.callbackStatements.find? Node.isDefine).getD n.unwrap] = .ok deps ∧
    (requireJs.dependencies ns = requireJs.dependencies [n.unwrap] ↔
      ∀ inner, n.callbackStatements.find? Node.isDefine = some inner →
        requireJs.dependencies [inner] = requireJs.dependencies [n.unwrap]) := by
  have hshape := RequireJs.statements_of_ok hns
  rw [hn] at hshape
  have hfind : ns.find? Node.isDefine =
      some ((n.callbackStatements.find? Node.isDefine).getD n.unwrap) := by
    rw [hshape]
    exact RequireJs.find?_isDefine_module isComment_of_opening (List.find?_some hn)
  have hfirst := RequireJs.dependencies_of_find? hfind hdeps
  refine ⟨hfirst, ?_⟩
  rw [hdeps]
  change RequireJs.dependencies _ = _ at hfirst
  cases hinner : n.callbackStatements.find? Node.isDefine with
  | none =>
    rw [hinner] at hfirst
    constructor
    · rintro - inner ⟨⟩
    · intro _
      exact hfirst.symm
  | some inner =>
    rw [hinner] at hfirst
    constructor
    · rintro h _ ⟨⟩
      exact hfirst.trans h
    · intro h
      exact hfirst.symm.trans (h inner rfl)

theorem dependencies_own_iff_nested_define :
    let define (path name : String) (body : List Node) := Node.call (.literal (.text "define"))
      [.arr [.literal (.text path)], .code [.param (.literal (.text name)) (.bool false)]
        (.block body) (.bool false)]
    let inner := define "'b'" "b" []
    let outer := define "'a'" "a" [inner]
    let top := [Node.comment (.text "A module."), .value outer []]
    let ns := [Node.comment (.text "A module."), inner, outer]
    top.find? Node.isDefine = some (.value outer []) ∧
      (requireJs.statements (.tree (.block top))).result = .ok ns ∧
      requireJs.dependencies ns = .ok [.found (.text "b") "b"] ∧
      requireJs.dependencies ns ≠ requireJs.dependencies [outer] := by
  intro define inner outer top ns
  have hfind : top.find? Node.isDefine = some (.value outer []) := rfl
  have hns : (requireJs.statements (.tree (.block top))).result = .ok ns := rfl
  have hdeps : requireJs.dependencies ns = .ok [.found (.text "b") "b"] := rfl
  refine ⟨hfind, hns, hdeps, ?_⟩
  intro hown
  have hinner := (dependencies_own_iff hfind hns hdeps).2.mp hown inner rfl
  have hother : requireJs.dependencies [outer] = .ok [.found (.text "a") "a"] := rfl
  have hsame : requireJs.dependencies [inner] = .ok [.found (.text "b") "b"] := rfl
  rw [hsame, Node.unwrap_wrapper, hother] at hinner
  simp at hinner

end ModuleStyle

end DocHarvest
