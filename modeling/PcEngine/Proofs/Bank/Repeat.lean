/-
PcEngine/Proofs/Bank/Repeat.lean

Where the bank numbers past the end of a ROM image land.

The rule is stated apart from how it is worked out (`LandsAt`).  An image of a power of
two of banks is repeated as a whole.  Any other image has two parts, the largest power of
two below its size and the rest: the first answers for the lower half of every 128
numbers and the second for the upper half, each repeated from the start of its half.

The power of two is found by the position of the highest bit (`floorPow2`), which is why
it is the largest one (`isGreatest_floorPow2`); an image has no second part exactly if it
is a power of two itself (`eq_floorPow2_iff`).

In 64 bits the double of the power of two has to fit, so this works for images of up to
2^63 banks.  The bank table asks for 128 numbers only, and then no bank is past the 128th,
however large the image: so the first cells of the banks can be worked out as well
(`Table.checkedOfLayout_eq_of_le`).

Main result: every number lands at a bank of the image, by the rule; and with repetition
and without card RAM the table of a card shows ROM behind all 128 numbers
(`repeats_inside`).
-/
import Mathlib.Algebra.Order.Ring.Nat
import Mathlib.Order.Bounds.Basic
import PcEngine.Proofs.Checked.Banks

namespace PcEngine

variable {number banks block : Nat}

/-! ### The largest power of two -/

theorem isPowerOfTwo_floorPow2 (n : Nat) : (floorPow2 n).isPowerOfTwo := ⟨n.log2, rfl⟩

theorem eq_floorPow2_iff {n : Nat} : n = floorPow2 n ↔ n.isPowerOfTwo := by
  constructor
  · intro h
    rw [h]
    exact isPowerOfTwo_floorPow2 n
  · rintro ⟨k, rfl⟩
    show 2 ^ k = 2 ^ (2 ^ k).log2
    rw [Nat.log2_two_pow]

/-- No other power of two comes closer from below. -/
theorem isGreatest_floorPow2 (hpos : 1 ≤ banks) (hpow : ¬banks.isPowerOfTwo) :
    IsGreatest {p | p.isPowerOfTwo ∧ p < banks} (floorPow2 banks) := by
  have hzero : banks ≠ 0 := Nat.ne_of_gt hpos
  have hne : floorPow2 banks ≠ banks := fun h => hpow (eq_floorPow2_iff.mp h.symm)
  refine ⟨⟨isPowerOfTwo_floorPow2 banks, Nat.lt_of_le_of_ne (floorPow2_le hzero) hne⟩, ?_⟩
  rintro p ⟨⟨k, rfl⟩, hlt⟩
  have hexponent : k ≤ banks.log2 := (Nat.le_log2 hzero).mpr (Nat.le_of_lt hlt)
  exact Nat.pow_le_pow_right Nat.zero_lt_two hexponent

/-! ### The rule -/

/-- The bank of an image of `banks` banks at which a bank number lands.

* `inside` — it is a bank of the image;
* `whole` — an image of a power of two of banks is repeated as a whole;
* `lower` — of any other, the largest power of two below its size is repeated over the
  lower half of every 128 numbers;
* `upper` — and what is left of it over the upper half. -/
structure LandsAt (number banks block : Nat) : Prop where
  inside : block < banks
  whole : banks.isPowerOfTwo → block = number % banks
  lower : ¬banks.isPowerOfTwo → ∀ p, IsGreatest {q | q.isPowerOfTwo ∧ q < banks} p →
    number % 128 < 64 → block < p ∧ block % p = number % 128 % p
  upper : ¬banks.isPowerOfTwo → ∀ p, IsGreatest {q | q.isPowerOfTwo ∧ q < banks} p →
    64 ≤ number % 128 →
      p ≤ block ∧ (block - p) % (banks - p) = (number % 128 - 64) % (banks - p)

theorem repeatedBank_of_isPowerOfTwo (hpow : banks.isPowerOfTwo) (number : Nat) :
    repeatedBank number banks = some (number % banks) := by
  have hzero : banks ≠ 0 := by
    obtain ⟨k, rfl⟩ := hpow
    exact Nat.ne_of_gt (Nat.two_pow_pos k)
  rw [repeatedBank, if_neg hzero, if_pos (eq_floorPow2_iff.mpr hpow)]

theorem repeatedBank_of_not_isPowerOfTwo (hpos : 1 ≤ banks) (hpow : ¬banks.isPowerOfTwo)
    (number : Nat) :
    repeatedBank number banks =
      if number % 128 < 64 then some (number % 128 % floorPow2 banks)
      else some ((number % 128 - 64) % (banks - floorPow2 banks) + floorPow2 banks) := by
  have hne : ¬banks = floorPow2 banks := fun h => hpow (eq_floorPow2_iff.mp h)
  rw [repeatedBank, if_neg (Nat.ne_of_gt hpos), if_neg hne]

/-- **Every number lands at a bank of the image, by the rule.** -/
theorem exists_landsAt (hpos : 1 ≤ banks) (number : Nat) :
    ∃ block, repeatedBank number banks = some block ∧ LandsAt number banks block := by
  by_cases hpow : banks.isPowerOfTwo
  · have hlands := repeatedBank_of_isPowerOfTwo hpow number
    exact ⟨_, hlands, repeatedBank_lt hlands, fun _ => rfl, absurd hpow, absurd hpow⟩
  · have hlands := repeatedBank_of_not_isPowerOfTwo hpos hpow number
    have hgreatest := isGreatest_floorPow2 hpos hpow
    by_cases hline : number % 128 < 64
    · rw [if_pos hline] at hlands
      refine ⟨_, hlands, repeatedBank_lt hlands, fun h => absurd h hpow, ?_, ?_⟩
      · intro _ p hp _
        rw [hp.unique hgreatest]
        exact ⟨Nat.mod_lt _ (floorPow2_pos banks), Nat.mod_mod _ _⟩
      · intro _ p _ hupper
        exact absurd hline (Nat.not_lt.mpr hupper)
    · rw [if_neg hline] at hlands
      refine ⟨_, hlands, repeatedBank_lt hlands, fun h => absurd h hpow, ?_, ?_⟩
      · intro _ p _ hlower
        exact absurd hlower hline
      · intro _ p hp _
        rw [hp.unique hgreatest, Nat.add_sub_cancel, Nat.mod_mod]
        exact ⟨Nat.le_add_left _ _, rfl⟩

/-! ### The table of a card -/

/-- An image of at most 2^63 banks is a power of two, or its double fits 64 bits. -/
theorem eq_floorPow2_or_double_lt (hmax : banks ≤ 2 ^ 63) :
    banks = floorPow2 banks ∨ banks * 2 < UInt64.size := by
  by_cases hlast : banks = 2 ^ 63
  · exact .inl (eq_floorPow2_iff.mpr ⟨63, hlast⟩)
  · refine .inr ?_
    simp only [UInt64.size]
    omega

namespace Layout

variable {l : Layout}

/-- Numbers past the end of the image do not land behind themselves. -/
theorem romBank?_le (h : l.romBank? number = some block) : block ≤ number := by
  have hlt := romBank?_lt h
  unfold romBank? at h
  split at h
  · exact Nat.le_of_eq (Option.some.inj h).symm
  · omega

theorem extraBank?_of_none (hextra : l.extraBanks = 0) (number : Nat) :
    l.extraBank? number = none := by
  rw [extraBank?, if_neg]
  omega

theorem readPage_of_romBank? (hnumber : number < romBankLimit) (hextra : l.extraBanks = 0)
    (h : l.romBank? number = some block) : l.readPage number = .bank .rom block := by
  simp only [readPage, fixedPage?_eq_none hnumber, extraBank?_of_none hextra, if_pos hnumber, h]

theorem checkedExtraBank?_of_none (hextra : l.extraBanks = 0) (number : Nat) :
    l.checkedExtraBank? UInt64.size number = .ok none := by
  have hreach : Checked.sub romBankLimit firstExtraRamBank = .ok 64 := rfl
  have hstop : Checked.add UInt64.size firstExtraRamBank (min 0 64) = .ok firstExtraRamBank := rfl
  rw [checkedExtraBank?, hextra, hreach, Checked.ok_bind, hstop, Checked.ok_bind, if_neg]
  · rfl
  · omega

/-- What a number sees can be worked out in 64 bits. -/
theorem checkedReadPage_eq_of_le (hextra : l.extraBanks = 0) (hmax : l.romBanks ≤ 2 ^ 63)
    (number : Nat) : l.checkedReadPage UInt64.size number = .ok (l.readPage number) := by
  rw [checkedReadPage, checkedExtraBank?_of_none hextra, Checked.ok_bind, readPage,
    extraBank?_of_none hextra]
  rcases fixedPage? number with - | page
  · have hrom : l.checkedRomBank? UInt64.size number = .ok (l.romBank? number) := by
      simp only [checkedRomBank?, romBank?, Checked.pure_eq_ok,
        checkedRepeatedBank_eq (eq_floorPow2_or_double_lt hmax)]
      split
      · rfl
      · split <;> rfl
    dsimp only
    split
    · rename_i hnumber
      rw [hrom, Checked.ok_bind]
      rcases hb : l.romBank? number with - | block
      · rfl
      · -- the bank is one of the first 128, so its first cell has a small number
        have hblock : block < romBankLimit := Nat.lt_of_le_of_lt (romBank?_le hb) hnumber
        exact Page.checkedBank_eq hblock (by decide)
    · rfl
  · rfl

theorem checkedWritePage_eq_of_le (hextra : l.extraBanks = 0) (number : Nat) :
    l.checkedWritePage UInt64.size number = .ok (l.writePage number) := by
  rw [checkedWritePage, checkedExtraBank?_of_none hextra, Checked.ok_bind, writePage,
    extraBank?_of_none hextra]
  rcases fixedPage? number with - | page <;> rfl

end Layout

/-- The table can be worked out in 64 bits. -/
theorem Table.checkedOfLayout_eq_of_le {l : Layout} (hextra : l.extraBanks = 0)
    (hmax : l.romBanks ≤ 2 ^ 63) : checkedOfLayout UInt64.size l = .ok (ofLayout l) := by
  simp only [checkedOfLayout, Layout.checkedReadPage_eq_of_le hextra hmax,
    Layout.checkedWritePage_eq_of_le hextra, Checked.ofFnM_ok, Checked.ok_bind,
    Checked.pure_eq_ok, ofLayout]

/-- What the first 128 numbers read with repetition and without card RAM: a bank of the
image, which is the one of that number as far as the image goes, and from there on the one
at which the number lands. -/
theorem Table.readPage_ofLayout_repeated {l : Layout} {number : Byte} (hpos : 1 ≤ l.romBanks)
    (hextra : l.extraBanks = 0) (hrepeat : l.repeatRom = true) (hnumber : number < 0x80) :
    ∃ block < l.romBanks, (ofLayout l).readPage number = .bank .rom block ∧
      (number.toNat < l.romBanks → block = number.toNat) ∧
      (l.romBanks ≤ number.toNat → repeatedBank number.toNat l.romBanks = some block) := by
  have hlimit : number.toNat < romBankLimit := UInt8.lt_iff_toNat_lt.mp hnumber
  rw [readPage_ofLayout]
  by_cases hinside : number.toNat < l.romBanks
  · have hb : l.romBank? number.toNat = some number.toNat := if_pos hinside
    exact ⟨number.toNat, hinside, Layout.readPage_of_romBank? hlimit hextra hb, fun _ => rfl,
      fun h => absurd hinside (Nat.not_lt.mpr h)⟩
  · obtain ⟨block, hlands, hlandsAt⟩ := exists_landsAt hpos number.toNat
    have hb : l.romBank? number.toNat = some block := by
      rw [Layout.romBank?, if_neg hinside, if_pos hrepeat, hlands]
    exact ⟨block, hlandsAt.inside, Layout.readPage_of_romBank? hlimit hextra hb,
      fun h => absurd h hinside, fun _ => hlands⟩

/-- **Repetition always lands in the image**: every bank number lands at a bank of the
image, by the rule and without leaving 64 bits; so with repetition and without card RAM
the table of a card shows a bank of the image behind each of the first 128 numbers. -/
theorem repeats_inside {banks : Nat} (hpos : 1 ≤ banks) (hmax : banks ≤ 2 ^ 63) :
    (∀ number, ∃ block, checkedRepeatedBank UInt64.size number banks = .ok (some block) ∧
      repeatedBank number banks = some block ∧ LandsAt number banks block) ∧
    ∀ l : Layout, l.romBanks = banks → l.extraBanks = 0 → l.repeatRom = true →
      Table.checkedOfLayout UInt64.size l = .ok (Table.ofLayout l) ∧
      ∀ number : Byte, number < 0x80 →
        ∃ block < banks, (Table.ofLayout l).readPage number = .bank .rom block ∧
          (number.toNat < banks → block = number.toNat) ∧
          (banks ≤ number.toNat → repeatedBank number.toNat banks = some block) := by
  constructor
  · intro number
    obtain ⟨block, hlands, hlandsAt⟩ := exists_landsAt hpos number
    refine ⟨block, ?_, hlands, hlandsAt⟩
    rw [checkedRepeatedBank_eq (eq_floorPow2_or_double_lt hmax), hlands]
  · rintro l rfl hextra hrepeat
    refine ⟨Table.checkedOfLayout_eq_of_le hextra hmax, fun number hnumber => ?_⟩
    exact Table.readPage_ofLayout_repeated hpos hextra hrepeat hnumber

/-- An image of 48 banks, 32 of them repeated below number 64 and 16 from there on. -/
theorem repeats_inside_fortyEight :
    1 ≤ 48 ∧ 48 ≤ 2 ^ 63 ∧
      (∀ number, ∃ block, checkedRepeatedBank UInt64.size number 48 = .ok (some block) ∧
        repeatedBank number 48 = some block ∧ LandsAt number 48 block) ∧
      ∀ l : Layout, l.romBanks = 48 → l.extraBanks = 0 → l.repeatRom = true →
        Table.checkedOfLayout UInt64.size l = .ok (Table.ofLayout l) ∧
        ∀ number : Byte, number < 0x80 →
          ∃ block < 48, (Table.ofLayout l).readPage number = .bank .rom block ∧
            (number.toNat < 48 → block = number.toNat) ∧
            (48 ≤ number.toNat → repeatedBank number.toNat 48 = some block) :=
  ⟨by decide, by decide, repeats_inside (by decide) (by decide)⟩

end PcEngine
