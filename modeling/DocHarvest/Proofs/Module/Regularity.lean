import DocHarvest.Proofs.Datum.Regularity
import DocHarvest.Proofs.Module.DefineCall
import DocHarvest.Proofs.Node.RoundTrip

/-!
# What a regular script consists of

The statements of a regular script are regular in every style, and so are the names that stand in
it. The dependencies of a script are all found in it, never given.
-/
namespace DocHarvest

namespace Node

theorem allRegular_iff {ns : List Node} :
    allRegular ns = true ↔ ∀ n ∈ ns, n.isRegular = true := by
  induction ns with
  | nil => simp [allRegular]
  | cons n ns ih => simp [allRegular, ih]

theorem isRegular_unwrap {n : Node} (h : n.isRegular = true) : n.unwrap.isRegular = true := by
  unfold unwrap
  split
  · exact (Bool.and_eq_true_iff.mp h).1
  · exact h

theorem statements_regular {body : Node} (h : body.isRegular = true) {ss : List Node}
    (hss : body.statements = .ok ss) : ∀ n ∈ ss, n.isRegular = true := by
  cases body with
  | block statements =>
    cases hss
    exact allRegular_iff.mp h
  | _ => cases hss

end Node

/-- A script whose data are regular, in either of its forms. -/
def Script.isRegular : Script → Bool
  | tree root => root.isRegular
  | data d => d.isRegular

theorem Script.rootStatements_regular {root : Node} (h : root.isRegular = true) {top : List Node}
    (htop : rootStatements root = .ok top) : ∀ n ∈ top, n.isRegular = true := by
  cases root with
  | block ss =>
    cases htop
    exact Node.allRegular_iff.mp h
  | _ => cases htop

theorem Script.statements_regular {script : Script} (h : script.isRegular = true)
    {top : List Node} (htop : script.statements = .ok top) : ∀ n ∈ top, n.isRegular = true := by
  cases script with
  | tree root => exact rootStatements_regular h htop
  | data d =>
    cases d with
    | object fs =>
      obtain ⟨root, hroot, htop⟩ := Fault.bind_eq_ok_iff.mp htop
      exact rootStatements_regular (Node.isRegular_of_ofData _ h root hroot) htop
    | _ => cases htop

namespace RequireJs

theorem define?_regular {n : Node} (h : n.isRegular = true) {d : Define}
    (hd : define? n = .ok (some d)) :
    d.call.isRegular = true ∧ (∀ p ∈ d.params, p.isRegular = true) ∧ d.body.isRegular = true := by
  obtain ⟨callee, bound, hcall, hself, -, hlast⟩ := define?_eq_some_iff.mp hd
  have hunwrap := Node.isRegular_unwrap h
  refine ⟨hself ▸ hunwrap, ?_⟩
  rw [hcall, Node.isRegular, Bool.and_eq_true] at hunwrap
  obtain ⟨last, hmem, hcode⟩ := Option.map_eq_some_iff.mp hlast
  have hregular := Node.isRegular_unwrap
    (Node.allRegular_iff.mp hunwrap.2 last (List.mem_of_getLast? hmem))
  rw [hcode, Node.isRegular, Bool.and_eq_true, Bool.and_eq_true] at hregular
  exact ⟨Node.allRegular_iff.mp hregular.1.1, hregular.1.2⟩

theorem exists_of_firstDefine {nodes : List Node} {d : Define}
    (h : firstDefine nodes = .ok (some d)) : ∃ n ∈ nodes, define? n = .ok (some d) := by
  obtain ⟨n, hn, hd⟩ := Option.map_eq_some_iff.mp (firstDefine_of_ok h)
  exact ⟨n, List.mem_of_find?_eq_some hn, hd⟩

theorem statements_regular {top nodes : List Node} (h : ∀ n ∈ top, n.isRegular = true)
    (hnodes : (statements top).result = .ok nodes) : ∀ n ∈ nodes, n.isRegular = true := by
  obtain ⟨r, hr, hnodes⟩ := Traced.result_bind_eq_ok_iff.mp hnodes
  cases r with
  | none =>
    cases hnodes
    exact h
  | some d =>
    obtain ⟨n, hn, hd⟩ := exists_of_firstDefine hr
    obtain ⟨hcall, -, hbody⟩ := define?_regular (h n hn) hd
    obtain ⟨inner, hinner, hnodes⟩ := Fault.bind_eq_ok_iff.mp hnodes
    cases hnodes
    intro m hm
    simp only [List.mem_append, List.mem_singleton, List.mem_filter, Option.mem_toList] at hm
    rcases hm with (⟨hhead, -⟩ | hm) | rfl
    · exact h m (List.mem_of_mem_head? hhead)
    · exact Node.statements_regular hbody hinner m hm
    · exact hcall

end RequireJs

namespace ModuleStyle

theorem statements_regular {style : ModuleStyle} {script : Script}
    (h : script.isRegular = true) {nodes : List Node}
    (hnodes : (style.statements script).result = .ok nodes) :
    ∀ n ∈ nodes, n.isRegular = true := by
  obtain ⟨top, htop, hnodes⟩ := Traced.result_bind_eq_ok_iff.mp hnodes
  have hregular := Script.statements_regular h htop
  cases style with
  | requireJs => exact RequireJs.statements_regular hregular hnodes
  | _ =>
    cases hnodes
    exact hregular

end ModuleStyle

end DocHarvest
