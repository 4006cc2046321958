/-
PcEngine/Proofs/Store/Frame.lean

What the operations of the store keep, and what an access inside a region
does.

No operation changes the size of a region, and none of them but a write aimed
at ROM changes ROM.  An access below the size of its region is never one of the
two defaults: a read gives a cell and not the open-bus value
(`getElem?_of_lt`), a write is not dropped (`getElem?_poke`).
-/
import PcEngine.Store.Basic

namespace PcEngine.Store

variable (s : Store)

/-! ### Sizes -/

@[simp] theorem size_region_poke (r q : Region) (i : Nat) (b : Byte) :
    ((s.poke r i b).region q).size = (s.region q).size := by
  simp only [poke, region_modify]
  split <;> simp

@[simp] theorem size_region_clearVolatile (q : Region) :
    (s.clearVolatile.region q).size = (s.region q).size := by
  cases q <;> simp [clearVolatile, region]

@[simp] theorem size_region_restoreBackup (data : Array Byte) (q : Region) :
    ((s.restoreBackup data).region q).size = (s.region q).size := by
  cases q with
  | backupRam =>
    -- the saved bytes take the place of as many cells
    simp only [restoreBackup, region, Array.size_append, Array.size_extract]
    omega
  | rom | ram | extraRam | sink => rfl

/-! ### Other regions -/

theorem region_poke_of_ne {r q : Region} (h : q ≠ r) (i : Nat) (b : Byte) :
    (s.poke r i b).region q = s.region q := by
  rw [poke, region_modify, if_neg h]

theorem rom_poke {r : Region} (h : r ≠ .rom) (i : Nat) (b : Byte) :
    (s.poke r i b).rom = s.rom :=
  s.region_poke_of_ne (Ne.symm h) i b

@[simp] theorem vram_poke (r : Region) (i : Nat) (b : Byte) : (s.poke r i b).vram = s.vram :=
  s.vram_modify r _

@[simp] theorem rom_clearVolatile : s.clearVolatile.rom = s.rom := rfl

@[simp] theorem rom_restoreBackup (data : Array Byte) : (s.restoreBackup data).rom = s.rom := rfl

/-! ### Inside a region and behind it -/

theorem getElem?_of_lt {r : Region} {i : Nat} (h : i < (s.region r).size) :
    (s.region r)[i]? = some (s.peek r i) := by
  rw [peek, Array.getElem?_eq_getElem h, Option.getD_some]

theorem peek_of_size_le {r : Region} {i : Nat} (h : (s.region r).size ≤ i) :
    s.peek r i = openBus := by
  rw [peek, Array.getElem?_eq_none h, Option.getD_none]

theorem getElem?_poke {r : Region} {i : Nat} (h : i < (s.region r).size) (b : Byte) :
    ((s.poke r i b).region r)[i]? = some b := by
  rw [getElem?_of_lt _ (by rwa [size_region_poke]), peek_poke, if_pos ⟨rfl, rfl, h⟩]

/-- All cells after one has been replaced. -/
theorem getElem?_region_poke (r q : Region) (i j : Nat) (b : Byte) :
    ((s.poke r i b).region q)[j]? =
      if q = r ∧ j = i ∧ i < (s.region r).size then some b else (s.region q)[j]? := by
  by_cases hq : q = r
  · subst hq
    by_cases hj : j = i
    · subst hj
      by_cases hi : j < (s.region q).size <;> simp [poke, hi]
    · rw [poke, region_modify, if_pos rfl, Array.getElem?_setIfInBounds_ne (Ne.symm hj),
        if_neg (fun h => hj h.2.1)]
  · rw [region_poke_of_ne s hq, if_neg (fun h => hq h.1)]

/-- Saved bytes take the place of as many cells as there are of both. -/
theorem getElem?_restoreBackup (data : Array Byte) (k : Nat) :
    (s.restoreBackup data).backupRam[k]? =
      if k < min data.size s.backupRam.size then data[k]? else s.backupRam[k]? := by
  simp only [restoreBackup]
  generalize hn : min data.size s.backupRam.size = n
  have hdata : n ≤ data.size := hn ▸ Nat.min_le_left _ _
  have hcells : n ≤ s.backupRam.size := hn ▸ Nat.min_le_right _ _
  have hfront : (data.extract 0 n).size = n := by
    rw [Array.size_extract, Nat.min_eq_left hdata, Nat.sub_zero]
  rw [Array.getElem?_append, hfront]
  by_cases hk : k < n
  · rw [if_pos hk, if_pos hk, Array.getElem?_extract, Nat.min_eq_left hdata, Nat.sub_zero,
      if_pos hk, Nat.zero_add]
  · have hle : n ≤ k := Nat.le_of_not_lt hk
    rw [if_neg hk, if_neg hk, Array.getElem?_extract, Nat.min_self, Nat.add_sub_of_le hle]
    split
    · rfl
    · rw [Array.getElem?_eq_none (by omega)]

end PcEngine.Store
