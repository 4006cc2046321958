/-
PcEngine/Proofs/Sound/SampleBuffer.lean

The ring of samples is a queue.

Seen through `toList`, adding a sample appends it (`toList_push`) and taking one
removes the first (`toList_eq_cons`), wherever in the ring the samples stand:
cells that are fewer than `bufferSize` steps apart are different cells, so the
one written next is none of the waiting ones.

`taken n` is what taking `n` samples gives.  Together with what is left it is
the old contents (`taken_append_toList`), and its last element is the sample
that is held (`last_discard`).
-/
import PcEngine.Sound.SampleBuffer

namespace PcEngine.Sound.SampleBuffer

variable (b : SampleBuffer)

@[simp] theorem length_toList : b.toList.length = b.count := by
  simp [toList]

/-! ### Adding a sample -/

theorem push_of_lt (hroom : b.count < bufferSize) (sample : Byte) :
    b.push sample = (true, { b with
      cells := b.cells.setIfInBounds ((b.head + b.count) % bufferSize) sample
      count := b.count + 1 }) := by
  have hfull : b.isFull = false := by simp [isFull, Nat.ne_of_lt hroom]
  rw [push, hfull, if_neg Bool.false_ne_true]

/-- A full buffer takes no sample. -/
theorem push_of_full (hfull : b.count = bufferSize) (sample : Byte) :
    (b.push sample).2 = b := by
  simp [push, isFull, hfull]

/-- The cells of the waiting samples are not the next free one. -/
theorem get_push_of_lt {k : Nat} (hk : k < b.count) (hroom : b.count < bufferSize)
    (sample : Byte) : (b.push sample).2.get k = b.get k := by
  have hne : (b.head + b.count) % bufferSize ≠ (b.head + k) % bufferSize := by
    simp only [bufferSize] at *
    omega
  simp only [b.push_of_lt hroom, get, Vector.getElem?_setIfInBounds_ne hne]

theorem get_push_count (hroom : b.count < bufferSize) (sample : Byte) :
    (b.push sample).2.get b.count = sample := by
  have hcell : (b.head + b.count) % bufferSize < bufferSize := Nat.mod_lt _ (by decide)
  simp only [b.push_of_lt hroom, get, Vector.getElem?_setIfInBounds_self_of_lt hcell,
    Option.getD_some]

@[simp] theorem last_push (sample : Byte) : (b.push sample).2.last = b.last := by
  unfold push
  split <;> rfl

/-- A sample is added behind the waiting ones. -/
theorem toList_push (hroom : b.count < bufferSize) (sample : Byte) :
    (b.push sample).2.toList = b.toList ++ [sample] := by
  have hwaiting : (List.range b.count).map (b.push sample).2.get = b.toList :=
    List.map_congr_left fun k hk => b.get_push_of_lt (List.mem_range.mp hk) hroom sample
  have hcount : (b.push sample).2.count = b.count + 1 := by rw [b.push_of_lt hroom]
  rw [toList, hcount, List.range_succ, List.map_append, hwaiting, List.map_singleton,
    b.get_push_count hroom]

/-! ### Taking samples -/

theorem exists_count_eq_succ (h : b.isEmpty = false) : ∃ n, b.count = n + 1 :=
  Nat.exists_eq_succ_of_ne_zero (by simpa [isEmpty] using h)

theorem pop_of_isEmpty (h : b.isEmpty = true) : b.pop = (b.last, b) := by
  rw [pop, if_pos h]

/-- What taking a sample gives is the sample held after it. -/
theorem pop_fst : b.pop.1 = b.pop.2.last := by
  unfold pop
  split <;> rfl

theorem count_pop : b.pop.2.count = b.count - 1 := by
  unfold pop
  split
  · rename_i h
    have hcount : b.count = 0 := by simpa [isEmpty] using h
    rw [hcount]
  · rfl

/-- The next sample is the first of the waiting ones. -/
theorem toList_eq_cons (h : b.isEmpty = false) : b.toList = b.pop.1 :: b.pop.2.toList := by
  obtain ⟨n, hn⟩ := b.exists_count_eq_succ h
  have hpop : b.pop = (b.get 0, { b with
      head := (b.head + 1) % bufferSize, count := n, last := b.get 0 }) := by
    simp [pop, h, hn]
  -- counted from the new head, every sample is one place nearer
  have hnearer : ∀ k, b.pop.2.get k = b.get (k + 1) := by
    intro k
    have hcell : ((b.head + 1) % bufferSize + k) % bufferSize = (b.head + (k + 1)) % bufferSize := by
      rw [Nat.mod_add_mod, Nat.add_assoc, Nat.add_comm 1 k]
    rw [hpop]
    simp only [get, hcell]
  rw [toList, hn, List.range_succ_eq_map, List.map_cons, List.map_map, toList, hpop]
  refine congrArg _ (List.map_congr_left fun k _ => ?_)
  rw [← hpop, hnearer]
  rfl

theorem discard_of_isEmpty (h : b.isEmpty = true) (n : Nat) : b.discard n = b := by
  induction n with
  | zero => rfl
  | succ n ih => rw [discard, pop_of_isEmpty b h, ih]

/-- Taking more samples than are waiting takes those that are. -/
theorem discard_min (n : Nat) : b.discard (min n b.count) = b.discard n := by
  induction n generalizing b with
  | zero => rw [Nat.zero_min]
  | succ n ih =>
    rcases h : b.isEmpty with - | -
    · obtain ⟨k, hk⟩ := b.exists_count_eq_succ h
      have hpop : b.pop.2.count = k := by rw [count_pop, hk, Nat.add_sub_cancel]
      rw [hk, Nat.succ_min_succ, discard, discard, ← ih b.pop.2, hpop]
    · rw [discard_of_isEmpty b h, discard_of_isEmpty b h]

/-- Samples can be taken in two goes. -/
theorem discard_add (m n : Nat) : b.discard (m + n) = (b.discard m).discard n := by
  induction m generalizing b with
  | zero => rw [Nat.zero_add, discard]
  | succ m ih => rw [Nat.succ_add, discard, discard, ih]

theorem count_discard (n : Nat) : (b.discard n).count = b.count - n := by
  induction n generalizing b with
  | zero => exact (Nat.sub_zero _).symm
  | succ n ih => rw [discard, ih, count_pop, Nat.sub_sub, Nat.add_comm 1 n]

theorem count_discard_le (n : Nat) : (b.discard n).count ≤ b.count := by
  rw [count_discard]
  exact Nat.sub_le _ _

/-- What taking `n` samples gives, as long as samples are waiting. -/
def taken (b : SampleBuffer) : Nat → List Byte
  | 0 => []
  | n + 1 => if b.isEmpty then [] else b.pop.1 :: b.pop.2.taken n

theorem taken_append_toList (n : Nat) : b.taken n ++ (b.discard n).toList = b.toList := by
  induction n generalizing b with
  | zero => rfl
  | succ n ih =>
    rcases h : b.isEmpty with - | -
    · rw [taken, h, if_neg Bool.false_ne_true, discard, List.cons_append, ih, b.toList_eq_cons h]
    · rw [taken, if_pos h, discard_of_isEmpty b h, List.nil_append]

/-- The sample that is held is the last one taken. -/
theorem last_discard (n : Nat) : (b.discard n).last = (b.taken n).getLastD b.last := by
  induction n generalizing b with
  | zero => rfl
  | succ n ih =>
    rcases h : b.isEmpty with - | -
    · rw [taken, h, if_neg Bool.false_ne_true, discard, ih, List.getLastD_cons, pop_fst]
    · rw [taken, if_pos h, discard_of_isEmpty b h]
      rfl

end PcEngine.Sound.SampleBuffer
