import MacTypeControl.Editor.Mutation

/-!
# What is read after a change of the nodes

A reading takes the last entry for a key, so it is the reading of the later nodes or else of the
earlier ones.
-/

namespace MacTypeControl.Editor

open Text

theorem sameName_refl (a : Chars) : eqIgnoreAsciiCase a a = true := eqIgnoreAsciiCase_iff.mpr rfl

theorem sameName_symm {a b : Chars} (h : eqIgnoreAsciiCase a b = true) :
    eqIgnoreAsciiCase b a = true :=
  eqIgnoreAsciiCase_iff.mpr (eqIgnoreAsciiCase_iff.mp h).symm

theorem sameName_trans {a b c : Chars} (h : eqIgnoreAsciiCase a b = true)
    (h' : eqIgnoreAsciiCase b c = true) : eqIgnoreAsciiCase a c = true :=
  eqIgnoreAsciiCase_iff.mpr ((eqIgnoreAsciiCase_iff.mp h).trans (eqIgnoreAsciiCase_iff.mp h'))

theorem otherName {a b c : Chars} (h : eqIgnoreAsciiCase a b = true)
    (h' : eqIgnoreAsciiCase b c = false) : eqIgnoreAsciiCase a c = false := by
  cases hac : eqIgnoreAsciiCase a c with
  | false => rfl
  | true => exact absurd (sameName_trans (sameName_symm h) hac) (by simp [h'])

theorem otherName_symm {a b : Chars} (h : eqIgnoreAsciiCase a b = false) :
    eqIgnoreAsciiCase b a = false := by
  cases hba : eqIgnoreAsciiCase b a with
  | false => rfl
  | true => exact absurd (sameName_symm hba) (by simp [h])

/-- The names are those of one pair, in any case. -/
theorem sameName_of_isEntry {target keyName target' keyName' : Chars} {node : IniNode}
    (h : node.isEntry target keyName = true) (h' : node.isEntry target' keyName' = true) :
    eqIgnoreAsciiCase target target' = true ∧ eqIgnoreAsciiCase keyName keyName' = true := by
  cases node with
  | keyValue sec key value lead separator suffix raw =>
    simp only [IniNode.isEntry, Bool.and_eq_true] at h h'
    exact ⟨sameName_trans (sameName_symm h.1) h'.1, sameName_trans (sameName_symm h.2) h'.2⟩
  | _ => exact absurd h (by simp [IniNode.isEntry])

theorem isEntry_congr {target keyName target' keyName' : Chars}
    (htarget : eqIgnoreAsciiCase target target' = true)
    (hkey : eqIgnoreAsciiCase keyName keyName' = true) (node : IniNode) :
    node.isEntry target keyName = node.isEntry target' keyName' := by
  cases node with
  | keyValue sec key value lead separator suffix raw =>
    simp only [IniNode.isEntry, eqIgnoreAsciiCase, eqIgnoreAsciiCase_iff.mp htarget, eqIgnoreAsciiCase_iff.mp hkey]
  | _ => rfl

theorem exists_value_of_isEntry {target keyName : Chars} {node : IniNode}
    (h : node.isEntry target keyName = true) : ∃ value, node.value? = some value := by
  cases node with
  | keyValue sec key value lead separator suffix raw => exact ⟨value, rfl⟩
  | _ => exact absurd h (by simp [IniNode.isEntry])

/-! ## Last values -/

section

variable (target keyName : Chars)

theorem lastValue_append (a b : List IniNode) :
    lastValue (a ++ b) target keyName =
      (lastValue b target keyName).or (lastValue a target keyName) := by
  unfold lastValue
  rw [List.reverse_append, List.find?_append]
  cases hfind : b.reverse.find? (IniNode.isEntry target keyName) with
  | none => rfl
  | some node =>
    obtain ⟨value, hvalue⟩ := exists_value_of_isEntry (List.find?_some hfind)
    simp [hvalue]

theorem lastValue_eq_none {nodes : List IniNode}
    (h : nodes.any (IniNode.isEntry target keyName) = false) :
    lastValue nodes target keyName = none := by
  unfold lastValue
  have hfind : nodes.reverse.find? (IniNode.isEntry target keyName) = none := by
    rw [List.find?_eq_none]
    intro node hnode
    rw [List.any_eq_false] at h
    exact h node (List.mem_reverse.mp hnode)
  rw [hfind]
  rfl

theorem lastValue_entry {node : IniNode} (h : node.isEntry target keyName = true) :
    lastValue [node] target keyName = node.value? := by
  simp [lastValue, h]

theorem lastValue_other {node : IniNode} (h : node.isEntry target keyName = false) :
    lastValue [node] target keyName = none :=
  lastValue_eq_none target keyName (by simp [h])

/-- A node that is no entry for the key makes no difference. -/
theorem lastValue_insert (a b : List IniNode) {node : IniNode}
    (h : node.isEntry target keyName = false) :
    lastValue (a ++ node :: b) target keyName = lastValue (a ++ b) target keyName := by
  rw [List.append_cons, lastValue_append, lastValue_append _ _ a, lastValue_other _ _ h,
    Option.none_or, lastValue_append]

theorem lastValue_of_entry (a : List IniNode) {node : IniNode} {b : List IniNode}
    (hnode : node.isEntry target keyName = true)
    (hb : b.any (IniNode.isEntry target keyName) = false) :
    lastValue (a ++ node :: b) target keyName = node.value? := by
  obtain ⟨value, hvalue⟩ := exists_value_of_isEntry hnode
  rw [List.append_cons, lastValue_append, lastValue_eq_none _ _ hb, Option.none_or,
    lastValue_append, lastValue_entry _ _ hnode, hvalue, Option.some_or]

end

/-! ## Changes of one node -/

theorem updateFirst_split {p : IniNode → Bool} (f : IniNode → IniNode) {nodes : List IniNode}
    (h : nodes.any p = true) :
    ∃ a node b, nodes = a ++ node :: b ∧ a.any p = false ∧ p node = true ∧
      updateFirst p f nodes = a ++ f node :: b := by
  induction nodes with
  | nil => exact absurd h (by simp)
  | cons first rest ih =>
    by_cases hfirst : p first = true
    · exact ⟨[], first, rest, rfl, rfl, hfirst, by simp [updateFirst, hfirst]⟩
    · obtain ⟨a, node, b, rfl, ha, hnode, hupdate⟩ := ih (by simpa [hfirst] using h)
      refine ⟨first :: a, node, b, rfl, by simpa [hfirst] using ha, hnode, ?_⟩
      simp [updateFirst, hfirst, hupdate]

theorem updateLast_split {p : IniNode → Bool} (f : IniNode → IniNode) {nodes : List IniNode}
    (h : nodes.any p = true) :
    ∃ a node b, nodes = a ++ node :: b ∧ b.any p = false ∧ p node = true ∧
      updateLast p f nodes = a ++ f node :: b := by
  obtain ⟨a, node, b, hnodes, ha, hnode, hupdate⟩ :=
    updateFirst_split f (show nodes.reverse.any p = true by rwa [List.any_reverse])
  refine ⟨b.reverse, node, a.reverse, ?_, by rwa [List.any_reverse], hnode, ?_⟩
  · rw [← List.reverse_reverse nodes, hnodes]
    simp
  · rw [updateLast, hupdate]
    simp

theorem insertAfterLast_split (p : IniNode → Bool) (node : IniNode) (nodes : List IniNode) :
    ∃ a b, nodes = a ++ b ∧ b.any p = false ∧
      (nodes.any p = true → ∃ last, a.getLast? = some last ∧ p last = true) ∧
      insertAfterLast p node nodes = a ++ node :: b := by
  unfold insertAfterLast
  cases hback : nodes.reverse.findIdx? p with
  | none =>
    refine ⟨nodes, [], by simp, rfl, fun hany => ?_, rfl⟩
    rw [List.findIdx?_eq_none_iff] at hback
    obtain ⟨found, hfound, hp⟩ := List.any_eq_true.mp hany
    exact absurd hp (by simp [hback found (List.mem_reverse.mpr hfound)])
  | some back =>
    obtain ⟨hback', hfound, hnot⟩ := List.findIdx?_eq_some_iff_getElem.mp hback
    have hlt : back < nodes.length := by simpa using hback'
    refine ⟨_, _, (List.take_append_drop (nodes.length - back) nodes).symm, ?_, fun _ => ?_, rfl⟩
    · rw [List.any_eq_false]
      intro later hlater
      have htake : later ∈ nodes.reverse.take back := by
        rw [List.take_reverse]
        exact List.mem_reverse.mpr hlater
      obtain ⟨index, hindex, rfl⟩ := List.mem_iff_getElem.mp htake
      rw [List.length_take, lt_min_iff] at hindex
      rw [List.getElem_take]
      simpa using hnot index hindex.1
    · refine ⟨nodes.reverse[back], ?_, hfound⟩
      have hsome : nodes.reverse[back]? = some nodes.reverse[back] := List.getElem?_eq_getElem hback'
      rw [List.getElem?_reverse hlt, Nat.sub_right_comm] at hsome
      rw [List.getLast?_take, if_neg (by omega), hsome, Option.some_or]

end MacTypeControl.Editor
