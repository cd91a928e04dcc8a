import Mathlib.Data.List.TakeWhile
import LiveDataflow.Port

/-!
# Which texts are addresses

Reading and writing addresses undo each other, but not on the same ground.  A text is read wherever
its first dot has something on both sides, and then writing gives the text back.  An address comes
back from its text only if its operator has no dot of its own, since the first dot divides the two.

## Results

* `PortAddress.parse_eq_ok_iff`: exactly the addresses of the form `operator.port` with both sides
  present are read, and reading loses nothing.
* `PortAddress.exists_parse_iff`: the texts that are read, by the place of their first dot.
* `PortAddress.parse_and_text`: both round trips, each with the texts or addresses that make it.
-/

set_option autoImplicit false

namespace LiveDataflow

namespace PortAddress

/-- Exactly the texts of addresses whose names are there, and whose operator has no dot, are read. -/
theorem parse_eq_ok_iff {s : String} {a : PortAddress} :
    parse s = .ok a ↔
      s = a.text ∧ a.operator ≠ "" ∧ '.' ∉ a.operator.toList ∧ a.port ≠ "" := by
  have hdot : (".": String).toList = ['.'] := rfl
  constructor
  · intro h
    unfold parse at h
    cases hd : s.toList.dropWhile (· != '.') with
    | nil => rw [hd] at h; cases h
    | cons c port =>
      have hstop := List.head?_dropWhile_not (· != '.') s.toList
      rw [hd] at hstop h
      have hc : c = '.' := by simpa using hstop
      have hsplit := List.takeWhile_append_dropWhile (p := (· != '.')) (l := s.toList)
      rw [hd, hc] at hsplit
      dsimp only at h
      split at h
      · cases h
      · next hne =>
        cases h
        refine ⟨?_, ?_, fun hmem => ?_, ?_⟩
        · rw [← String.toList_inj]
          simp only [text, String.toList_append, String.toList_ofList, hdot]
          rw [List.append_assoc]
          exact hsplit.symm
        · intro he
          exact hne (.inl (by simpa using congrArg String.toList he))
        · rw [String.toList_ofList] at hmem
          exact Bool.false_ne_true (List.mem_takeWhile_imp hmem)
        · intro he
          exact hne (.inr (by simpa using congrArg String.toList he))
  · rintro ⟨rfl, hop, hnd, hport⟩
    obtain ⟨operator, port⟩ := a
    have htext : (PortAddress.text ⟨operator, port⟩).toList = operator.toList ++ '.' :: port.toList := by
      simp [text, hdot]
    have hall : ∀ c ∈ operator.toList, (c != '.') = true := fun c hc => bne_iff_ne.2 fun e => hnd (e ▸ hc)
    unfold parse
    rw [htext, List.takeWhile_append_of_pos hall, List.dropWhile_append_of_pos hall]
    simp only [List.takeWhile_cons, List.dropWhile_cons, bne_self_eq_false, Bool.false_eq_true, if_false,
      List.append_nil]
    rw [if_neg]
    · simp
    · rintro (h | h)
      · exact hop (by simpa using h)
      · exact hport (by simpa using h)

/-- The first dot stands at place `i` exactly if a text is cut there with no dot before. -/
theorem idxOf?_dot_eq_some_iff {l : List Char} {i : Nat} :
    l.idxOf? '.' = some i ↔ ∃ before after, l = before ++ '.' :: after ∧ '.' ∉ before ∧ before.length = i := by
  rw [List.idxOf?_eq_some_iff]
  constructor
  · rintro ⟨hi, hdot, hbefore⟩
    refine ⟨l.take i, l.drop (i + 1), ?_, ?_, by simp; omega⟩
    · rw [← hdot, List.getElem_cons_drop, List.take_append_drop]
    · intro hmem
      obtain ⟨j, hj, hget⟩ := List.getElem_of_mem hmem
      have hji : j < i := by simp at hj; omega
      rw [List.getElem_take] at hget
      exact hbefore j hji hget
  · rintro ⟨before, after, rfl, hnot, rfl⟩
    refine ⟨by simp, by simp, fun j hj hget => ?_⟩
    rw [List.getElem_append_left hj] at hget
    exact hnot (hget ▸ List.getElem_mem hj)

/-- A text is read if and only if it has a dot and its first one stands neither first nor last. -/
theorem exists_parse_iff {s : String} :
    (∃ a, parse s = .ok a) ↔ ∃ i, s.toList.idxOf? '.' = some i ∧ i ≠ 0 ∧ i + 1 ≠ s.toList.length := by
  have hdot : (".": String).toList = ['.'] := rfl
  constructor
  · rintro ⟨⟨operator, port⟩, h⟩
    obtain ⟨rfl, hoperator, hnot, hport⟩ := parse_eq_ok_iff.1 h
    have htext : (text ⟨operator, port⟩).toList = operator.toList ++ '.' :: port.toList := by
      simp [text, hdot]
    refine ⟨operator.toList.length, ?_, ?_, ?_⟩
    · exact idxOf?_dot_eq_some_iff.2 ⟨operator.toList, port.toList, htext, hnot, rfl⟩
    · simpa using hoperator
    · have hlength : port.toList.length ≠ 0 := by simpa using hport
      rw [htext, List.length_append, List.length_cons]
      omega
  · rintro ⟨i, hi, hfirst, hlast⟩
    obtain ⟨before, after, hs, hnot, rfl⟩ := idxOf?_dot_eq_some_iff.1 hi
    refine ⟨⟨String.ofList before, String.ofList after⟩, parse_eq_ok_iff.2 ⟨?_, ?_, ?_, ?_⟩⟩
    · rw [← String.toList_inj, hs]
      simp [text, hdot]
    · intro he
      exact hfirst (by simpa using congrArg (fun t => t.toList.length) he)
    · simpa using hnot
    · intro he
      have hafter : after = [] := by simpa using congrArg String.toList he
      rw [hs, hafter] at hlast
      simp at hlast

/-- The texts that are read come back when their address is written; the addresses that come back
when their text is read are those with both names present and no dot in the operator. -/
theorem parse_and_text :
    (∀ s : String,
      ((∃ a, parse s = .ok a) ↔
        ∃ i, s.toList.idxOf? '.' = some i ∧ i ≠ 0 ∧ i + 1 ≠ s.toList.length) ∧
      ∀ a, parse s = .ok a → a.text = s) ∧
    ∀ a : PortAddress,
      parse a.text = .ok a ↔ a.operator ≠ "" ∧ '.' ∉ a.operator.toList ∧ a.port ≠ "" := by
  refine ⟨fun s => ⟨exists_parse_iff, fun a h => (parse_eq_ok_iff.1 h).1.symm⟩, fun a => ?_⟩
  rw [parse_eq_ok_iff]
  exact and_iff_right rfl

/-- A port may have dots of its own: the first one divides. -/
theorem parse_and_text_dotted :
    parse "source.out.v2" = .ok ⟨"source", "out.v2"⟩ ∧
      text ⟨"source", "out.v2"⟩ = "source.out.v2" ∧
      ¬ parse (text ⟨"source.out", "v2"⟩) = .ok ⟨"source.out", "v2"⟩ := by
  have hread : parse "source.out.v2" = .ok ⟨"source", "out.v2"⟩ :=
    parse_eq_ok_iff.2 ⟨by decide, by decide, by decide, by decide⟩
  refine ⟨hread, (parse_and_text.1 "source.out.v2").2 _ hread, fun h => ?_⟩
  exact ((parse_and_text.2 ⟨"source.out", "v2"⟩).1 h).2.1 (by decide)

end PortAddress

end LiveDataflow
