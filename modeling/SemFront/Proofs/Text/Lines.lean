/-
Lines of texts and of bytes. An offset of a text is a place of one of its lines, and it makes no difference
whether bytes are read as a text that is cut into lines, or cut into lines of which each is read: no
character reaches over a line feed, and no other byte is read as one.
-/
import Mathlib.Algebra.GroupWithZero.Nat
import Mathlib.Data.List.TakeWhile
import SemFront.Text.Bytes
import SemFront.Text.Lines

namespace SemFront.Text

/-! ## Parts between separators -/

section Split

variable [DecidableEq α] {a : α}

theorem splitOn_cons (c : α) (cs : List α) :
    (c :: cs).splitOn a = if c = a then [] :: cs.splitOn a else (cs.splitOn a).modifyHead (c :: ·) := by
  simp only [List.splitOn_cons_eq_if_modifyHead, beq_iff_eq]

/-- The first part ends before the first separator. -/
theorem splitOn_head (cs : List α) : (cs.splitOn a)[0]? = some (cs.takeWhile (· ≠ a)) := by
  induction cs with
  | nil => rfl
  | cons c cs ih =>
    obtain ⟨l, ls, hl⟩ := List.exists_cons_of_ne_nil (List.splitOn_ne_nil a cs)
    rw [hl] at ih
    rw [splitOn_cons, hl, List.takeWhile_cons]
    by_cases hc : c = a
    · simp [hc]
    · simpa [hc] using ih

theorem length_splitOn (cs : List α) : (cs.splitOn a).length = cs.count a + 1 := by
  induction cs with
  | nil => rfl
  | cons c cs ih =>
    rw [splitOn_cons, List.count_cons]
    split
    · simp_all
    · simp_all

/-- Each part but the last has its separator. -/
theorem splitOn_lengths (cs : List α) : ((cs.splitOn a).map (·.length + 1)).sum = cs.length + 1 := by
  induction cs with
  | nil => rfl
  | cons c cs ih =>
    obtain ⟨l, ls, hl⟩ := List.exists_cons_of_ne_nil (List.splitOn_ne_nil a cs)
    rw [hl] at ih
    rw [splitOn_cons, hl]
    split
    · simp only [List.map_cons, List.sum_cons, List.length_nil, List.length_cons] at ih ⊢
      omega
    · simp only [List.modifyHead_cons, List.map_cons, List.sum_cons, List.length_cons] at ih ⊢
      omega

theorem not_mem_of_mem_splitOn {cs : List α} : ∀ l ∈ cs.splitOn a, a ∉ l := by
  induction cs with
  | nil => simp
  | cons c cs ih =>
    obtain ⟨l, ls, hl⟩ := List.exists_cons_of_ne_nil (List.splitOn_ne_nil a cs)
    rw [hl] at ih
    rw [splitOn_cons, hl]
    by_cases hc : c = a
    · rw [if_pos hc]
      rintro m (_ | ⟨_, hm⟩)
      · exact List.not_mem_nil
      · exact ih m hm
    · rw [if_neg hc]
      rintro m (_ | ⟨_, hm⟩)
      · intro hmem
        rcases List.mem_cons.1 hmem with h | h
        · exact hc h.symm
        · exact ih l List.mem_cons_self h
      · exact ih m (List.mem_cons_of_mem _ hm)

theorem exists_mem_splitOn {c : α} {cs : List α} (h : c ∈ cs) (hc : c ≠ a) : ∃ l ∈ cs.splitOn a, c ∈ l := by
  induction cs with
  | nil => cases h
  | cons d cs ih =>
    obtain ⟨l, ls, hl⟩ := List.exists_cons_of_ne_nil (List.splitOn_ne_nil a cs)
    rw [hl] at ih
    rw [splitOn_cons, hl]
    rcases List.mem_cons.1 h with rfl | h
    · rw [if_neg hc]
      exact ⟨c :: l, List.mem_cons_self, List.mem_cons_self⟩
    · obtain ⟨m, hm, hcm⟩ := ih h
      split
      · exact ⟨m, List.mem_cons_of_mem _ hm, hcm⟩
      · rcases List.mem_cons.1 hm with rfl | hm
        · exact ⟨d :: m, List.mem_cons_self, List.mem_cons_of_mem _ hcm⟩
        · exact ⟨m, List.mem_cons_of_mem _ hm, hcm⟩

theorem takeWhile_append_of_notMem {xs : List α} (h : a ∉ xs) (ys : List α) :
    (xs ++ ys).takeWhile (· ≠ a) = xs ++ ys.takeWhile (· ≠ a) :=
  List.takeWhile_append_of_pos fun _ hx => decide_eq_true fun he => h (he ▸ hx)

/-- What stands before an offset ends with some of the part that the offset falls into. -/
theorem exists_last_part (cs : List α) : ∃ left, (cs.reverse.takeWhile (· ≠ a)).reverse = left ∧ a ∉ left ∧
    (cs = left ∨ ∃ done, cs = done ++ a :: left) := by
  by_cases h : a ∈ cs.reverse
  · obtain ⟨left, done, hcs, hleft⟩ := List.eq_append_cons_of_mem h
    have hcs' : cs = done.reverse ++ a :: left.reverse := by
      rw [← List.reverse_reverse cs, hcs]
      simp
    refine ⟨left.reverse, ?_, by simpa using hleft, .inr ⟨done.reverse, hcs'⟩⟩
    rw [hcs, takeWhile_append_of_notMem hleft]
    simp
  · refine ⟨cs, ?_, by simpa using h, .inl rfl⟩
    have hall := takeWhile_append_of_notMem h []
    rw [List.append_nil, List.takeWhile_nil, List.append_nil] at hall
    rw [hall, List.reverse_reverse]

/-- The part into which an offset falls is made of what stands before the offset behind the last separator
and of what follows up to the next one; before it are the other parts, each with its separator. -/
theorem splitOn_offset (before behind : List α) :
    ((before ++ behind).splitOn a)[before.count a]? =
      some ((before.reverse.takeWhile (· ≠ a)).reverse ++ behind.takeWhile (· ≠ a)) ∧
    ((((before ++ behind).splitOn a).take (before.count a)).map (·.length + 1)).sum +
      (before.reverse.takeWhile (· ≠ a)).length = before.length := by
  obtain ⟨left, hleft, hfree, hbefore⟩ := exists_last_part (a := a) before
  have hlen := congrArg List.length hleft
  rw [List.length_reverse] at hlen
  rw [hleft, hlen]
  rcases hbefore with rfl | ⟨done, rfl⟩
  · rw [List.count_eq_zero.2 hfree, splitOn_head, takeWhile_append_of_notMem hfree]
    simp
  · have hcount : (done ++ a :: left).count a = (done.splitOn a).length := by
      rw [length_splitOn, List.count_append, List.count_cons_self, List.count_eq_zero.2 hfree]
    rw [hcount, List.append_assoc, List.cons_append, List.splitOn_append_cons_self, List.take_left, splitOn_lengths,
      List.getElem?_append_right (Nat.le_refl _), Nat.sub_self, splitOn_head, takeWhile_append_of_notMem hfree]
    refine ⟨rfl, ?_⟩
    rw [List.length_append, List.length_cons]
    omega

end Split

theorem length_lines_le (text : String) : (lines text).length ≤ text.length + 1 := by
  rw [lines, length_splitOn, ← String.length_toList]
  exact Nat.succ_le_succ List.count_le_length

/-- Offset `k` of a text is place `i` of its line `n`, both counted from 0: before it are the lines before
that one, each with its line feed, and `i` more characters. One place more than the line has is its end. -/
structure Addresses (text : String) (k n i : Nat) (cs : List Char) : Prop where
  isLine : (lines text)[n]? = some cs
  inside : i ≤ cs.length
  offset : k = (((lines text).take n).map (·.length + 1)).sum + i
  char : i < cs.length → text.toList[k]? = cs[i]?
  stop : i = cs.length → text.toList[k]? = some '\n' ∨ k = text.length

/-! ## Lines of bytes -/

namespace Bytes

/-- The lines of some bytes: these are cut at the line feeds, and each line is read on its own. -/
def lines (bs : List UInt8) : List (List Char) := (bs.splitOn 0x0A).map (chars 0)

theorem followsFirst_newline (b : UInt8) : followsFirst b 0x0A = false := by
  unfold followsFirst
  repeat' split
  all_goals rfl

/-- What is behind a line feed does not belong to the character before it. -/
theorem first_append_newline (b : UInt8) (xs ys : List UInt8) : first b (xs ++ 0x0A :: ys) = first b xs := by
  have htail : isTail 0x0A = false := rfl
  match xs with
  | [] => rcases ys with _ | ⟨y, _ | ⟨z, ys⟩⟩ <;> simp [first, htail, followsFirst_newline]
  | [c] => cases ys <;> simp [first, htail]
  | [c, d] => simp [first, htail]
  | c :: d :: e :: xs => rfl

theorem first_width_le (b : UInt8) (bs : List UInt8) : (first b bs).2 ≤ bs.length + 1 := by
  unfold first
  repeat' split
  all_goals simp

/-- Bytes before a line feed are read as if nothing followed them. -/
theorem chars_append_newline {skip : Nat} {xs : List UInt8} (h : skip ≤ xs.length) (ys : List UInt8) :
    chars skip (xs ++ 0x0A :: ys) = chars skip xs ++ '\n' :: chars 0 ys := by
  induction xs generalizing skip with
  | nil =>
    obtain rfl := Nat.le_zero.1 h
    rfl
  | cons x xs ih =>
    cases skip with
    | succ skip => exact ih (Nat.le_of_succ_le_succ h)
    | zero =>
      have hwidth := first_width_le x xs
      rw [List.cons_append, chars, chars, first_append_newline, ih (by omega)]
      rfl

theorem ofNat_ne_newline {n : Nat} (h : n ≠ 10) : Char.ofNat n ≠ '\n' := by
  unfold Char.ofNat
  by_cases hvalid : n.isValidChar
  · rw [dif_pos hvalid]
    exact fun hn => h (congrArg Char.toNat hn)
  · rw [dif_neg hvalid]
    decide

/-- Only the shortest form of a character is read: where the first byte brings no bits, the second brings some. -/
theorem payload_of_followsFirst {b c : UInt8} (h : followsFirst b c = true) (hb : b = 0xE0 ∨ b = 0xF0) :
    0x10 ≤ payload c := by
  rcases hb with rfl | rfl
  · have hc : 0xA0 ≤ c.toNat ∧ c.toNat ≤ 0xBF := by
      simpa [followsFirst, UInt8.le_iff_toNat_le] using h
    unfold payload
    omega
  · have hc : 0x90 ≤ c.toNat ∧ c.toNat ≤ 0xBF := by
      simpa [followsFirst, UInt8.le_iff_toNat_le] using h
    unfold payload
    omega

/-- No other byte than a line feed starts one. -/
theorem first_ne_newline {b : UInt8} (hb : b ≠ 0x0A) (bs : List UInt8) : (first b bs).1 ≠ '\n' := by
  unfold first
  repeat' split
  all_goals first | exact (by decide : replacement ≠ '\n') | refine ofNat_ne_newline ?_
  -- one byte, and then the sequences of two, three and four, whose values are all too large
  · exact fun h => hb (UInt8.toNat_inj.1 h)
  · rename_i h _ c _ _
    simp only [Bool.and_eq_true, decide_eq_true_eq, UInt8.le_iff_toNat_le, UInt8.reduceToNat] at h
    omega
  · rename_i h _ c d _ hc
    simp only [Bool.and_eq_true, decide_eq_true_eq, UInt8.le_iff_toNat_le, UInt8.reduceToNat] at h hc
    have hbits : b.toNat % 0x10 = 0 → 0x10 ≤ payload c := fun h0 =>
      payload_of_followsFirst hc.1 (.inl (UInt8.toNat_inj.1 (show b.toNat = 0xE0 by omega)))
    omega
  · rename_i h _ c d e _ hc
    simp only [Bool.and_eq_true, decide_eq_true_eq, UInt8.le_iff_toNat_le, UInt8.reduceToNat] at h hc
    have hbits : b.toNat % 0x08 = 0 → 0x10 ≤ payload c := fun h0 =>
      payload_of_followsFirst hc.1.1 (.inr (UInt8.toNat_inj.1 (show b.toNat = 0xF0 by omega)))
    omega

theorem newline_notMem_chars {bs : List UInt8} (h : 0x0A ∉ bs) (skip : Nat) : '\n' ∉ chars skip bs := by
  induction bs generalizing skip with
  | nil => exact List.not_mem_nil
  | cons b bs ih =>
    have hb := List.ne_of_not_mem_cons h
    have hbs := List.not_mem_of_not_mem_cons h
    cases skip with
    | succ skip => exact ih hbs skip
    | zero => exact List.not_mem_cons_of_ne_of_not_mem (first_ne_newline hb.symm bs).symm (ih hbs _)

/-- Cutting a text that was read from bytes into lines is cutting the bytes into lines and reading each. -/
theorem lines_decode (bs : List UInt8) : Text.lines (decode bs) = lines bs := by
  rw [Text.lines, decode, String.toList_ofList, lines]
  -- by the number of bytes, since what is left is the bytes behind the first line feed
  induction hn : bs.length using Nat.strong_induction_on generalizing bs with
  | _ n ih =>
    by_cases h : 0x0A ∈ bs
    · obtain ⟨xs, ys, rfl, hxs⟩ := List.eq_append_cons_of_mem h
      have hys : ys.length < n := by
        rw [← hn, List.length_append, List.length_cons]
        omega
      rw [chars_append_newline (Nat.zero_le _), List.splitOn_append_cons_self_of_not_mem (newline_notMem_chars hxs 0),
        List.splitOn_append_cons_self_of_not_mem hxs, ih _ hys ys rfl]
      rfl
    · rw [List.splitOn_eq_singleton h, List.splitOn_eq_singleton (newline_notMem_chars h 0)]
      rfl

end Bytes

end SemFront.Text
