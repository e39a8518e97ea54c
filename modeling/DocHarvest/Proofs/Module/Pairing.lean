import DocHarvest.Proofs.Module.Detection

/-!
# How dependencies are paired

The dependencies of a `define` call are pairs. Every literal of the array is paired with the
parameter of the callback that has the same position in the full array (`pairAt`), so an item that
is no literal leaves the pairs after it as they are. A literal without a parameter at its position
has an empty name, and a parameter without an item at its position is not looked at.
-/
namespace DocHarvest

/-- The text of a literal, which may stand in a wrapper. -/
def Node.literalText? (n : Node) : Option String := n.unwrap.literal?.bind Datum.text?

theorem Node.literalText?_of_literal? {n : Node} {d : Datum} (h : n.isWellTyped = true)
    (hd : n.unwrap.literal? = some d) : ∃ text, d = .text text ∧ n.literalText? = some text := by
  obtain ⟨text, rfl⟩ := Datum.isText_iff.mp (isText_of_literal? (isWellTyped_unwrap h) hd)
  exact ⟨text, rfl, by simp [literalText?, hd, Datum.text?]⟩

namespace RequireJs

/-- The name under which the callback knows a parameter. -/
def IsLocalName (p : Node) (name : String) : Prop :=
  ∃ target splat, p = .param target splat ∧ target.localName = .ok (.text name)

/-- The pair of the item at a position of the array, if the item is a literal. -/
def pairAt (names : List String) (item : Node) (position : Nat) : Option Dependency :=
  item.literalText?.map fun text => .found (.text (names.getD position "")) (unquoted text)

theorem exists_localNames {params : List Node}
    (h : ∀ p ∈ params, ∃ name splat, p = .param name splat ∧ name.isWellTyped = true) :
    ∃ names, List.Forall₂ IsLocalName params names := by
  induction params with
  | nil => exact ⟨[], .nil⟩
  | cons p params ih =>
    obtain ⟨hp, hparams⟩ := List.forall_mem_cons.mp h
    obtain ⟨target, splat, rfl, htarget⟩ := hp
    obtain ⟨names, hnames⟩ := ih hparams
    have htakes := Node.localName_takesNames htarget
    obtain ⟨d, hd⟩ := htakes.returns_iff.mpr (by simp)
    obtain ⟨name, rfl⟩ := Datum.isText_iff.mp (htakes.of_ok hd)
    exact ⟨name :: names, .cons ⟨target, splat, rfl, hd⟩ hnames⟩

theorem mapM_paramName {params : List Node} {names : List String}
    (h : List.Forall₂ IsLocalName params names) :
    params.mapM paramName = .ok (names.map Datum.text) := by
  induction h with
  | nil => rfl
  | cons hp _ ih =>
    obtain ⟨target, splat, rfl, hname⟩ := hp
    rw [List.mapM_cons, paramName, hname, ih]
    rfl

/-- Pairing from some position on: the names that are left are those of the positions to come. -/
theorem pair_drop {items : List Node} (h : ∀ item ∈ items, item.isWellTyped = true)
    (names : List String) (start : Nat) :
    pair items ((names.drop start).map Datum.text) =
      .ok ((items.zipIdx start).filterMap fun x => pairAt names x.1 x.2) := by
  induction items generalizing start with
  | nil => rfl
  | cons item items ih =>
    obtain ⟨hitem, hitems⟩ := List.forall_mem_cons.mp h
    have htail : ((names.drop start).map Datum.text).tail =
        (names.drop (start + 1)).map Datum.text := by
      rw [← List.map_tail, List.tail_drop]
    have hhead : ((names.drop start).map Datum.text).headD (.text "") =
        .text (names.getD start "") := by
      rw [List.headD_eq_head?_getD, List.head?_map, List.head?_drop, List.getD_eq_getElem?_getD]
      cases names[start]? <;> rfl
    rw [pair, htail, hhead, ih hitems, List.zipIdx_cons, List.filterMap_cons]
    cases hd : item.unwrap.literal? with
    | none => simp [pairAt, Node.literalText?, hd]
    | some d =>
      obtain ⟨text, rfl, htext⟩ := Node.literalText?_of_literal? hitem hd
      simp only [pairAt, htext, Option.map_some]
      rfl

theorem dependenciesOf_of_array {d : Define} (hd : d.WellTyped) {names : List String}
    (hnames : List.Forall₂ IsLocalName d.params names) {items : List Node}
    (hlength : 2 ≤ d.args.length) (hitems : d.args.head?.map Node.unwrap = some (.arr items)) :
    dependenciesOf d = .ok (items.zipIdx.filterMap fun x => pairAt names x.1 x.2) := by
  obtain ⟨paths, hpaths, harr⟩ := Option.map_eq_some_iff.mp hitems
  have htyped : ∀ item ∈ items, item.isWellTyped = true := by
    have hunwrap := Node.isWellTyped_unwrap (hd.args paths (List.mem_of_mem_head? hpaths))
    rwa [harr, Node.isWellTyped, Node.allWellTyped_iff] at hunwrap
  unfold dependenciesOf
  cases hargs : d.args with
  | nil => simp [hargs] at hlength
  | cons first more =>
    cases more with
    | nil => simp [hargs] at hlength
    | cons second rest =>
      have hfirst : first = paths := by simpa [hargs] using hpaths
      refine Fault.bind_eq_ok_iff.mpr ⟨_, mapM_paramName hnames, ?_⟩
      rw [hfirst, harr]
      exact pair_drop htyped names 0

theorem dependenciesOf_of_no_array {d : Define} {names : List String}
    (hnames : List.Forall₂ IsLocalName d.params names)
    (h : d.args.length < 2 ∨ ∀ items, d.args.head?.map Node.unwrap ≠ some (.arr items)) :
    dependenciesOf d = .ok [] := by
  unfold dependenciesOf
  split
  case h_2 => rfl
  case h_1 paths second rest hargs =>
    have hother : ∀ items, paths.unwrap ≠ .arr items := by
      intro items hitems
      rcases h with hlength | hnone
      · simp only [hargs, List.length_cons] at hlength
        omega
      · exact hnone items (by simp [hargs, hitems])
    refine Fault.bind_eq_ok_iff.mpr ⟨_, mapM_paramName hnames, ?_⟩
    split
    case h_1 items hitems => exact absurd hitems (hother items)
    case h_2 => rfl

end RequireJs

namespace ModuleStyle

/-- The dependencies of an AMD module are those of the first `define` call. Without an array in
front of its callback there are none. With one there is a pair for each literal of the array in
order, and its name is that of the parameter at the literal's position, or empty. -/
theorem dependencies_paired_by_position {nodes : List Node} {n : Node} {deps : List Dependency}
    (htyped : ∀ m ∈ nodes, m.isWellTyped = true) (hn : nodes.find? Node.isDefine = some n)
    (h : requireJs.dependencies nodes = .ok deps) :
    ∃ callee args params body bound names, n.unwrap = .call callee args ∧
      args.getLast?.map Node.unwrap = some (.code params body bound) ∧
      List.Forall₂ RequireJs.IsLocalName params names ∧
      ((args.length < 2 ∨ ∀ items, args.head?.map Node.unwrap ≠ some (.arr items)) → deps = []) ∧
      ∀ items, 2 ≤ args.length → args.head?.map Node.unwrap = some (.arr items) →
        deps = items.zipIdx.filterMap fun x => RequireJs.pairAt names x.1 x.2 := by
  obtain ⟨r, hr, h⟩ := Fault.bind_eq_ok_iff.mp h
  have hfirst := RequireJs.firstDefine_of_ok hr
  rw [hn] at hfirst
  cases r with
  | none => cases hfirst
  | some d =>
    have hd : RequireJs.define? n = .ok (some d) := Option.some.inj hfirst
    have hwell := RequireJs.define?_wellTyped (htyped n (List.mem_of_find?_eq_some hn)) hd
    obtain ⟨callee, bound, hcall, -, -, hlast⟩ := RequireJs.define?_eq_some_iff.mp hd
    obtain ⟨names, hnames⟩ := RequireJs.exists_localNames hwell.params
    change RequireJs.dependenciesOf d = .ok deps at h
    refine ⟨callee, d.args, d.params, d.body, bound, names, hcall, hlast, hnames, ?_, ?_⟩
    · intro hnone
      rw [RequireJs.dependenciesOf_of_no_array hnames hnone] at h
      exact (Except.ok.inj h).symm
    · intro items hlength hitems
      rw [RequireJs.dependenciesOf_of_array hwell hnames hlength hitems] at h
      exact (Except.ok.inj h).symm

/-- The second item is no literal, and the last one has no parameter. -/
theorem dependencies_paired_by_position_gap :
    let text (s : String) := Node.literal (.text s)
    let items := [text "'a'", .call (text "load") [], .value (text "\"b\"") [], text "'c'"]
    let params := [Node.param (text "a") (.bool false), .param (.obj [text "x"]) (.bool false),
      .param (text "b") (.bool false)]
    let define := Node.call (text "define")
      [.value (.arr items) [], .code params (.block []) (.bool false)]
    let nodes := [Node.comment (.text "A module."), .value define []]
    let deps := [Dependency.found (.text "a") "a", .found (.text "b") "b", .found (.text "") "c"]
    (∀ m ∈ nodes, m.isWellTyped = true) ∧
      nodes.find? Node.isDefine = some (.value define []) ∧
      requireJs.dependencies nodes = .ok deps ∧
      ∃ names, List.Forall₂ RequireJs.IsLocalName params names ∧
        deps = items.zipIdx.filterMap fun x => RequireJs.pairAt names x.1 x.2 := by
  intro text items params define nodes deps
  have htyped : ∀ m ∈ nodes, m.isWellTyped = true := by decide
  have hn : nodes.find? Node.isDefine = some (.value define []) := rfl
  have hdeps : requireJs.dependencies nodes = .ok deps := rfl
  refine ⟨htyped, hn, hdeps, ?_⟩
  obtain ⟨callee, args, params', body, bound, names, hcall, hlast, hnames, -, hpairs⟩ :=
    dependencies_paired_by_position htyped hn hdeps
  cases hcall
  cases hlast
  exact ⟨names, hnames, hpairs items (by decide) rfl⟩

end ModuleStyle

end DocHarvest
