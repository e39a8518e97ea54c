import DocHarvest.Proofs.Module.DefineCall
import DocHarvest.Proofs.Node.Naming

/-!
# When the search for dependencies returns

A call with arguments is recognised by the name of its callee, provided the callee is an identifier
or a value (`Node.lookups`). A value need not have a name, and then the search ends there: it
returns if and only if all callees that it looks up have names.
-/
namespace DocHarvest

namespace Node

/-- The callee by whose name a call is recognised. -/
def lookups : Node → List Node
  | call callee args => if args.isEmpty || !callee.isNameLike then [] else [callee]
  | _ => []

/-- A call whose callee has no dotted name. -/
def isUnnamedCall : Node → Bool
  | call callee _ => !callee.isNamable
  | _ => false

theorem isNamable_of_isNamed {name : String} {n : Node} (h : n.isNamed name = true) :
    n.isNamable = true := by
  cases hn : n.isNamable with
  | true => rfl
  | false =>
    rw [isNamed_iff, qualifiedName_of_not_isNamable hn] at h
    cases h.2

theorem lookups_of_isComment {n : Node} (h : n.isComment = true) : n.unwrap.lookups = [] := by
  cases n with
  | comment text => rfl
  | _ => cases h

end Node

/-- A call is recognised or not by taking the name of its callee. -/
theorem callArgs?_takesNames {n : Node} (name : String) (h : n.isWellTyped = true) :
    TakesNames n.lookups (callArgs? name n) fun _ => True := by
  cases n with
  | call callee args =>
    rw [callArgs?, Node.lookups]
    split
    case isTrue => exact .done none
    case isFalse =>
      have hcallee := (Node.isWellTyped_call.mp h).1
      exact (Node.qualifiedName_takesNames hcallee).bind_nil fun _ _ => .done _
  | _ => exact .done none

theorem callArgs?_of_isUnnamedCall {name : String} {n : Node} {r : Option (List Node)}
    (hn : n.isUnnamedCall = true) (h : callArgs? name n = .ok r) : r = none := by
  cases r with
  | none => rfl
  | some args =>
    obtain ⟨callee, rfl, -, hnamed⟩ := callArgs?_eq_some_iff.mp h
    simp [Node.isUnnamedCall, Node.isNamable_of_isNamed hnamed] at hn

theorem pathOfData_takesNames {n : Node} {d : Datum} (h : n.isWellTyped = true)
    (hd : n.literal? = some d) : TakesNames [] (pathOfData d) fun _ => True := by
  obtain ⟨s, rfl⟩ := Datum.isText_iff.mp (Node.isText_of_literal? h hd)
  exact .done (unquoted s)

namespace CommonJs

/-- The callees that the search for `require` calls looks up at a statement. -/
def lookupsAt : Node → List Node
  | .assign _ v => v.unwrap.lookups
  | _ => []

/-- A statement that assigns the result of a call whose callee has no dotted name. -/
def assignsUnnamedCall : Node → Bool
  | .assign _ v => v.unwrap.isUnnamedCall
  | _ => false

theorem dependency?_takesNames {n : Node} (h : n.isWellTyped = true) :
    TakesNames (lookupsAt n) (dependency? n) fun _ => True := by
  cases n with
  | assign target v =>
    obtain ⟨htarget, hv⟩ := Node.isWellTyped_assign.mp h
    have hcall := callArgs?_takesNames "require" (Node.isWellTyped_unwrap hv)
    rw [lookupsAt, dependency?]
    refine (hcall.imp fun r hr _ => hr).bind_nil fun r hr => ?_
    split
    case h_2 => exact .done none
    case h_1 arg rest =>
      obtain ⟨callee, hv', -⟩ := callArgs?_eq_some_iff.mp hr
      have harg : arg.unwrap.isWellTyped = true := by
        have hargs := Node.isWellTyped_unwrap hv
        rw [hv', Node.isWellTyped_call] at hargs
        exact Node.isWellTyped_unwrap (hargs.2 arg (by simp))
      split
      case h_2 => exact .done none
      case h_1 d hd =>
        exact (Node.localName_takesNames htarget).bind fun _ _ =>
          (pathOfData_takesNames harg hd).bind fun _ _ => .done _
  | _ => exact .done none

theorem dependencies_takesNames {nodes : List Node} (h : ∀ n ∈ nodes, n.isWellTyped = true) :
    TakesNames (nodes.flatMap lookupsAt) (dependencies nodes) fun _ => True := by
  have hall := TakesNames.mapM fun n hn => dependency?_takesNames (h n hn)
  exact hall.bind_nil fun _ _ => .done _

theorem dependency?_of_assignsUnnamedCall {n : Node} {r : Option Dependency}
    (hn : assignsUnnamedCall n = true) (h : dependency? n = .ok r) : r = none := by
  unfold assignsUnnamedCall at hn
  split at hn
  case h_2 => cases hn
  case h_1 target v =>
    obtain ⟨args, hargs, h⟩ := Fault.bind_eq_ok_iff.mp h
    cases callArgs?_of_isUnnamedCall hn hargs
    cases h
    rfl

theorem dependencies_filter {nodes : List Node} {deps : List Dependency}
    (h : dependencies nodes = .ok deps) :
    dependencies (nodes.filter fun n => !assignsUnnamedCall n) = .ok deps := by
  obtain ⟨found, hfound, hdeps⟩ := Fault.bind_eq_ok_iff.mp h
  cases hdeps
  clear h
  suffices hfilter : ∃ kept, (nodes.filter fun n => !assignsUnnamedCall n).mapM dependency? =
      .ok kept ∧ kept.filterMap id = found.filterMap id by
    obtain ⟨kept, hkept, hsame⟩ := hfilter
    exact Fault.bind_eq_ok_iff.mpr ⟨kept, hkept, by rw [hsame]; rfl⟩
  induction nodes generalizing found with
  | nil =>
    cases hfound
    exact ⟨[], rfl, rfl⟩
  | cons n nodes ih =>
    rw [List.mapM_cons] at hfound
    obtain ⟨r, hr, hfound⟩ := Fault.bind_eq_ok_iff.mp hfound
    obtain ⟨rest, hrest, hfound⟩ := Fault.bind_eq_ok_iff.mp hfound
    cases hfound
    obtain ⟨kept, hkept, hsame⟩ := ih rest hrest
    cases hn : assignsUnnamedCall n with
    | true =>
      cases dependency?_of_assignsUnnamedCall hn hr
      rw [List.filter_cons_of_neg (by simp [hn])]
      exact ⟨kept, hkept, hsame⟩
    | false =>
      rw [List.filter_cons_of_pos (by simp [hn]), List.mapM_cons]
      refine ⟨r :: kept, ?_, by simp only [List.filterMap_cons, hsame]⟩
      exact Fault.bind_eq_ok_iff.mpr ⟨r, hr, Fault.bind_eq_ok_iff.mpr ⟨kept, hkept, rfl⟩⟩

end CommonJs

namespace RequireJs

/-- The callees that the search for a `define` call looks up: those before the call it finds. -/
def lookups (nodes : List Node) : List Node :=
  (nodes.takeWhile fun n => !n.isDefine).flatMap fun n => n.unwrap.lookups

theorem define?_of_isUnnamedCall {n : Node} {r : Option Define}
    (hn : n.unwrap.isUnnamedCall = true) (h : define? n = .ok r) : r = none := by
  obtain ⟨args, hargs, h⟩ := Fault.bind_eq_ok_iff.mp h
  cases callArgs?_of_isUnnamedCall hn hargs
  cases h
  rfl

theorem firstDefine_filter {nodes : List Node} {r : Option Define}
    (h : firstDefine nodes = .ok r) :
    firstDefine (nodes.filter fun n => !n.unwrap.isUnnamedCall) = .ok r := by
  induction nodes with
  | nil => exact h
  | cons n nodes ih =>
    obtain ⟨found, hfound, h⟩ := Fault.bind_eq_ok_iff.mp h
    cases hn : n.unwrap.isUnnamedCall with
    | true =>
      cases define?_of_isUnnamedCall hn hfound
      rw [List.filter_cons_of_neg (by simp [hn])]
      exact ih h
    | false =>
      rw [List.filter_cons_of_pos (by simp [hn])]
      refine Fault.bind_eq_ok_iff.mpr ⟨found, hfound, ?_⟩
      cases found with
      | some d => exact h
      | none => exact ih h

theorem dependencies_filter {nodes : List Node} {deps : List Dependency}
    (h : dependencies nodes = .ok deps) :
    dependencies (nodes.filter fun n => !n.unwrap.isUnnamedCall) = .ok deps := by
  obtain ⟨r, hr, h⟩ := Fault.bind_eq_ok_iff.mp h
  exact Fault.bind_eq_ok_iff.mpr ⟨r, firstDefine_filter hr, h⟩

/-- A `define` call that was found in a well-typed tree. -/
structure Define.WellTyped (d : Define) : Prop where
  call : d.call.isWellTyped = true
  args : ∀ a ∈ d.args, a.isWellTyped = true
  params : ∀ p ∈ d.params, ∃ name splat, p = .param name splat ∧ name.isWellTyped = true
  body : ∃ ss, d.body = .block ss ∧ ∀ n ∈ ss, n.isWellTyped = true

theorem define?_wellTyped {n : Node} {d : Define} (hn : n.isWellTyped = true)
    (h : define? n = .ok (some d)) : d.WellTyped := by
  obtain ⟨callee, bound, hcall, hd, -, hlast⟩ := define?_eq_some_iff.mp h
  have hunwrap := Node.isWellTyped_unwrap hn
  have hargs : ∀ a ∈ d.args, a.isWellTyped = true := by
    rw [hcall, Node.isWellTyped_call] at hunwrap
    exact hunwrap.2
  obtain ⟨last, hmem, hcode⟩ := Option.map_eq_some_iff.mp hlast
  have hcodeTyped := Node.isWellTyped_unwrap (hargs last (List.mem_of_getLast? hmem))
  rw [hcode] at hcodeTyped
  obtain ⟨hparams, hbody⟩ := Node.code_of_isWellTyped hcodeTyped
  exact ⟨hd ▸ hunwrap, hargs, hparams, hbody⟩

theorem define?_takesNames {n : Node} (h : n.isWellTyped = true) :
    TakesNames n.unwrap.lookups (define? n) fun _ => True := by
  have hcall := callArgs?_takesNames "define" (Node.isWellTyped_unwrap h)
  refine hcall.bind_nil fun r _ => ?_
  cases r with
  | none => exact .done none
  | some args =>
    dsimp only
    split
    · exact .done _
    · exact .done none

theorem firstDefine_takesNames {nodes : List Node} (h : ∀ n ∈ nodes, n.isWellTyped = true) :
    TakesNames (lookups nodes) (firstDefine nodes) fun r => ∀ d, r = some d → d.WellTyped := by
  induction nodes with
  | nil => exact .pure (by simp)
  | cons n nodes ih =>
    obtain ⟨hn, hnodes⟩ := List.forall_mem_cons.mp h
    cases hdefine : n.isDefine with
    | true =>
      -- The callee of the call that is found has a name, so nothing is looked up in vain here.
      obtain ⟨d, hd⟩ := exists_define?_of_isDefine hdefine
      have hlookups : lookups (n :: nodes) = [] := by
        rw [lookups, List.takeWhile_cons_of_neg (by simp [hdefine]), List.flatMap_nil]
      have hfirst : firstDefine (n :: nodes) = .ok (some d) :=
        Fault.bind_eq_ok_iff.mpr ⟨some d, hd, rfl⟩
      rw [hlookups, hfirst]
      refine .pure ?_
      rintro _ ⟨⟩
      exact define?_wellTyped hn hd
    | false =>
      have hlookups : lookups (n :: nodes) = n.unwrap.lookups ++ lookups nodes := by
        rw [lookups, List.takeWhile_cons_of_pos (by simp [hdefine]), List.flatMap_cons]
        rfl
      rw [hlookups]
      refine ((define?_takesNames hn).imp fun r hr _ => hr).bind fun r hr => ?_
      have hnone := isSome_of_define? hr
      rw [hdefine] at hnone
      cases r with
      | some d => cases hnone
      | none => exact ih hnodes

theorem moduleStatements_takesNames {top : List Node} {d : Define}
    (h : ∀ n ∈ top, n.isWellTyped = true) (hd : d.WellTyped) :
    TakesNames [] (moduleStatements top d) fun ns => ∀ n ∈ ns, n.isWellTyped = true := by
  obtain ⟨ss, hbody, hss⟩ := hd.body
  rw [moduleStatements, hbody]
  refine .pure ?_
  intro n hn
  simp only [List.mem_append, List.mem_filter, Option.mem_toList, List.mem_singleton] at hn
  rcases hn with (⟨hhead, -⟩ | hmem) | rfl
  · exact h n (List.mem_of_mem_head? hhead)
  · exact hss n hmem
  · exact hd.call

theorem statements_takesNames {top : List Node} (h : ∀ n ∈ top, n.isWellTyped = true) :
    TakesNames (lookups top) (ModuleStyle.requireJs.statements (.tree (.block top))).result
      fun ns => ∀ n ∈ ns, n.isWellTyped = true := by
  change TakesNames (lookups top) (liftM (firstDefine top) >>= _ : Traced (List Node)).result _
  rw [Traced.result_bind]
  refine (firstDefine_takesNames h).bind_nil fun r hr => ?_
  cases r with
  | some d => exact moduleStatements_takesNames h (hr d rfl)
  | none => exact .pure h

theorem paramName_takesNames {p : Node}
    (h : ∃ name splat, p = .param name splat ∧ name.isWellTyped = true) :
    TakesNames [] (paramName p) fun _ => True := by
  obtain ⟨name, splat, rfl, hname⟩ := h
  exact (Node.localName_takesNames hname).forget

theorem pair_takesNames {items : List Node} (h : ∀ n ∈ items, n.isWellTyped = true)
    (names : List Datum) : TakesNames [] (pair items names) fun _ => True := by
  induction items generalizing names with
  | nil => exact .done []
  | cons item items ih =>
    obtain ⟨hitem, hitems⟩ := List.forall_mem_cons.mp h
    rw [pair]
    split
    case h_2 => exact ih hitems names.tail
    case h_1 d hd =>
      exact (pathOfData_takesNames (Node.isWellTyped_unwrap hitem) hd).bind fun _ _ =>
        (ih hitems names.tail).bind fun _ _ => .done _

theorem dependenciesOf_takesNames {d : Define} (h : d.WellTyped) :
    TakesNames [] (dependenciesOf d) fun _ => True := by
  unfold dependenciesOf
  split
  case h_2 => exact .done []
  case h_1 paths second rest hargs =>
    have hparams : TakesNames (d.params.flatMap fun _ => []) (d.params.mapM paramName) _ :=
      .mapM fun p hp => paramName_takesNames (h.params p hp)
    have hpaths : paths.unwrap.isWellTyped = true :=
      Node.isWellTyped_unwrap (h.args paths (by simp [hargs]))
    refine (hparams.of_isNamable (by simp)).bind fun names _ => ?_
    split
    case h_2 => exact .done []
    case h_1 items hitems =>
      rw [hitems, Node.isWellTyped, Node.allWellTyped_iff] at hpaths
      exact pair_takesNames hpaths names

theorem dependencies_takesNames {nodes : List Node} (h : ∀ n ∈ nodes, n.isWellTyped = true) :
    TakesNames (lookups nodes) (dependencies nodes) fun _ => True := by
  refine (firstDefine_takesNames h).bind_nil fun r hr => ?_
  cases r with
  | some d => exact dependenciesOf_takesNames (hr d rfl)
  | none => exact .done []

theorem lookups_module {opening inner : List Node} {n : Node}
    (hopening : ∀ m ∈ opening, m.isComment = true) (hn : n.isDefine = true) :
    lookups (opening ++ inner ++ [n.unwrap]) = lookups inner := by
  induction opening with
  | nil =>
    induction inner with
    | nil =>
      rw [List.append_nil, List.nil_append, lookups,
        List.takeWhile_cons_of_neg (by simp [Node.isDefine_unwrap hn])]
      rfl
    | cons m inner ih =>
      rw [List.nil_append] at ih ⊢
      rw [List.cons_append]
      simp only [lookups, List.takeWhile_cons] at ih ⊢
      split
      · rw [List.flatMap_cons, List.flatMap_cons, ih]
      · rfl
  | cons m opening ih =>
    obtain ⟨hm, hopening⟩ := List.forall_mem_cons.mp hopening
    have hdefine := Node.not_isDefine_of_isComment hm
    have hlookups := Node.lookups_of_isComment hm
    rw [List.cons_append, List.cons_append, lookups,
      List.takeWhile_cons_of_pos (by simp [hdefine]), List.flatMap_cons, hlookups]
    exact ih hopening

/-- The callees that are looked up in the callback of the `define` call that is found. -/
def innerLookups (top : List Node) : List Node :=
  (top.find? Node.isDefine).toList.flatMap fun n => lookups n.callbackStatements

end RequireJs

namespace ModuleStyle

/-- Detection ends well exactly if all callees that are looked up have names, and calls whose
callees have none make no difference to what it finds. -/
theorem detection_returns_iff {nodes : List Node} (h : ∀ n ∈ nodes, n.isWellTyped = true) :
    ((∃ deps, commonJs.dependencies nodes = .ok deps) ↔
      ∀ f ∈ nodes.flatMap CommonJs.lookupsAt, f.isNamable = true) ∧
    ((∃ ns, (requireJs.statements (.tree (.block nodes))).result = .ok ns) ↔
      ∀ f ∈ RequireJs.lookups nodes, f.isNamable = true) ∧
    (∀ ns, (requireJs.statements (.tree (.block nodes))).result = .ok ns →
      ((∃ deps, requireJs.dependencies ns = .ok deps) ↔
        ∀ f ∈ RequireJs.innerLookups nodes, f.isNamable = true)) ∧
    (∀ deps, commonJs.dependencies nodes = .ok deps →
      commonJs.dependencies (nodes.filter fun n => !CommonJs.assignsUnnamedCall n) = .ok deps) ∧
    (∀ deps, requireJs.dependencies nodes = .ok deps →
      requireJs.dependencies (nodes.filter fun n => !n.unwrap.isUnnamedCall) = .ok deps) := by
  have hstatements := RequireJs.statements_takesNames h
  refine ⟨(CommonJs.dependencies_takesNames h).returns_iff, hstatements.returns_iff, ?_,
    fun deps => CommonJs.dependencies_filter, fun deps => RequireJs.dependencies_filter⟩
  intro ns hns
  have hdependencies := (RequireJs.dependencies_takesNames (hstatements.of_ok hns)).returns_iff
  refine hdependencies.trans ?_
  have hshape := RequireJs.statements_of_ok hns
  rw [RequireJs.innerLookups]
  cases hfind : nodes.find? Node.isDefine with
  | some n =>
    rw [hfind] at hshape
    rw [hshape, RequireJs.lookups_module isComment_of_opening (List.find?_some hfind)]
    simp
  | none =>
    -- Without a `define` call the same statements are searched twice.
    rw [hfind] at hshape
    have hall := hstatements.returns_iff.mp ⟨ns, hns⟩
    rw [hshape]
    simpa using hall

/-- A value whose base is a call has no name, so detection does not return where one is called. -/
theorem detection_returns_iff_chained_call :
    let chained := Node.value (.call (.literal (.text "load")) []) [.access (.text "get")]
    let call := Node.call chained [.literal (.text "'y'")]
    let nodes := [Node.assign (.value (.literal (.text "x")) []) (.value call []), call]
    (∀ n ∈ nodes, n.isWellTyped = true) ∧
      (¬∃ deps, commonJs.dependencies nodes = .ok deps) ∧
      ¬∃ ns, (requireJs.statements (.tree (.block nodes))).result = .ok ns := by
  intro chained call nodes
  have htyped : ∀ n ∈ nodes, n.isWellTyped = true := by decide
  obtain ⟨hcommon, hrequire, -⟩ := detection_returns_iff htyped
  refine ⟨htyped, ?_, ?_⟩
  · rw [hcommon]
    decide
  · rw [hrequire]
    decide

end ModuleStyle

end DocHarvest
