/-
PcEngine/Proofs/Machine/TrapArea.lean

Where a word goes that is written through the hardware page.

The first four cells of the sink are called its trap area, after the word accesses
through the hardware page that are said to land there.  They do not: such an access is
moved up by `trapOffset` cells, to keep clear of the trap area, and from there it goes as
far as the offset of its address (`wordCell_of_hardware`).  So it can reach every cell of
the sink but those of the trap area, and the bytes that it leaves are seen in every slot
that shows the sink (`missesTrap_of_hardware`); a write that stays in the trap area is
one that changes nothing.

Main result: `writeWord_missesTrap`, for every machine that can be reached.
-/
import PcEngine.Proofs.Machine.WordCells

namespace PcEngine.Machine

/-- The byte-addressed memories of two machines differ in the trap area only, the first
cells of the sink. -/
def StaysInTrap (m m' : Machine) : Prop :=
  ∀ r i, (m'.store.region r)[i]? ≠ (m.store.region r)[i]? → r = .sink ∧ i < trapOffset

/-- What a word write through the hardware page does.

* `only` — it changes nothing but the sink;
* `cells` — there the two bytes go to the cells that are `trapOffset` and the offset of
  the address from the start, as far as the sink goes;
* `trap` — so the trap area stays as it is;
* `shown` — in slots that show the sink, the bytes are read at the offset of the address,
  moved up in the same way, and everything else is read as before;
* `confined` — nothing changes outside the trap area only if nothing changes at all. -/
structure MissesTrap (m : Machine) (addr value : Word) : Prop where
  only : m.writeWord addr value =
    { m with store := { m.store with sink := (m.writeWord addr value).store.sink } }
  cells : ∀ i : Nat, ((m.writeWord addr value).store.sink)[i]? =
    if i = trapOffset + addr.toNat % bankSize then some (Word.low value)
    else if i = trapOffset + addr.toNat % bankSize + 1 ∧ i < sinkSize then
      some (Word.high value)
    else (m.store.sink)[i]?
  trap : ∀ i < trapOffset, ((m.writeWord addr value).store.sink)[i]? = (m.store.sink)[i]?
  shown : ∀ b, m.slots.readPage b = .sink → ((m.writeWord addr value).read b).1 =
    if b.toNat % bankSize = trapOffset + addr.toNat % bankSize then Word.low value
    else if b.toNat % bankSize = trapOffset + addr.toNat % bankSize + 1 then Word.high value
    else (m.read b).1
  confined : m.StaysInTrap (m.writeWord addr value) ↔ m.writeWord addr value = m

variable {m : Machine} {rom : Array Byte} {card : Card} {settings : Settings}
variable {sel : Option Nat} {addr b : Word}

/-! ### The sink -/

theorem only_writeWord_hardware (hpage : m.slots.writePage addr = .hardware) (value : Word) :
    m.writeWord addr value =
      { m with store := { m.store with sink := (m.writeWord addr value).store.sink } } := by
  simp only [writeWord, wordCell_of_hardware hpage]
  rfl

/-- A slot that shows the sink shows its cells in order, from the first one. -/
theorem read_of_sink (hpage : m.slots.readPage b = .sink) :
    m.read b = ((m.store.sink)[b.toNat % bankSize]?.getD openBus, m) := by
  have hread := read_of_flat hpage
  rw [Nat.zero_mul, Nat.zero_add] at hread
  exact hread

namespace Carries

theorem sink_writeWord_hardware (h : m.Carries rom card settings sel)
    (hpage : m.slots.writePage addr = .hardware) (value : Word) (i : Nat) :
    ((m.writeWord addr value).store.sink)[i]? =
      if i = trapOffset + addr.toNat % bankSize then some (Word.low value)
      else if i = trapOffset + addr.toNat % bankSize + 1 ∧ i < sinkSize then
        some (Word.high value)
      else (m.store.sink)[i]? := by
  have hsize : (m.store.region .sink).size = sinkSize := h.size .sink
  have hcells := h.cells_writeWord (wordCell_of_hardware hpage) value .sink i
  rw [hsize] at hcells
  simp only [true_and] at hcells
  by_cases hhigh : i = trapOffset + addr.toNat % bankSize + 1
  · subst hhigh
    exact hcells
  · simp only [hhigh, false_and, if_false] at hcells ⊢
    exact hcells

/-- The first byte is moved clear of the trap area, and the second one is behind it. -/
theorem missesTrap_of_hardware (h : m.Carries rom card settings sel)
    (hpage : m.slots.writePage addr = .hardware) (value : Word) : m.MissesTrap addr value := by
  have honly := only_writeWord_hardware hpage value
  have hcells := h.sink_writeWord_hardware hpage value
  have htrap : ∀ i < trapOffset,
      ((m.writeWord addr value).store.sink)[i]? = (m.store.sink)[i]? := by
    intro i hi
    rw [hcells, if_neg (by omega), if_neg (by omega)]
  refine ⟨honly, hcells, htrap, fun b hb => ?_, fun hstays => ?_, fun hsame => ?_⟩
  · have hb' : (m.writeWord addr value).slots.readPage b = .sink := by
      rw [honly]
      exact hb
    have hoffset : b.toNat % bankSize < bankSize := Nat.mod_lt _ (by decide)
    have hinside : b.toNat % bankSize < sinkSize := Nat.lt_trans hoffset (by decide)
    rw [read_of_sink hb', read_of_sink hb, hcells]
    simp only [hinside, and_true]
    split
    · rfl
    · split <;> rfl
  · have hsink : (m.writeWord addr value).store.sink = m.store.sink := by
      refine Array.ext_getElem? fun i => ?_
      -- a cell that differs is one of the trap area, and those do not
      by_cases hsame : ((m.writeWord addr value).store.sink)[i]? = (m.store.sink)[i]?
      · exact hsame
      · obtain ⟨-, hi⟩ := hstays .sink i hsame
        exact htrap i hi
    rw [honly, hsink]
  · rw [hsame]
    exact fun r i hne => absurd rfl hne

end Carries

/-- **A word written through the hardware page misses the trap area**, on every machine
that can be reached. -/
theorem writeWord_missesTrap (h : m.Reachable) (hpage : m.slots.readPage addr = .hardware)
    (value : Word) : m.MissesTrap addr value := by
  obtain ⟨rom, card, settings, sel, hm⟩ := h.carries
  exact hm.missesTrap_of_hardware ((hm.hardware_iff addr).mpr hpage) value

/-- At the last address of the page, where only the low byte has a cell. -/
theorem writeWord_missesTrap_lastAddress :
    let m := boot largeImage largeCard .standard
    m.Reachable ∧ m.slots.readPage 0x1FFF = .hardware ∧ m.MissesTrap 0x1FFF 0xBBAA := by
  intro m
  have h : m.Reachable := reachable_run .standard validate_largeCard []
  have hm := carries_of_powerOn powerOn_largeCard []
  have hpage : m.slots.readPage 0x1FFF = .hardware := (hm.readPage_eq_hardware_iff 0x1FFF).mpr rfl
  exact ⟨h, hpage, writeWord_missesTrap h hpage 0xBBAA⟩

/-- Slot 2 shows an unmapped number.  A word written at the offset `$10` of the hardware
page is seen there, at the offset `$14`. -/
theorem not_staysInTrap_unmapped :
    let m := (boot largeImage largeCard .standard).run [.selectBank 2 0x80]
    m.Reachable ∧ m.slots.readPage 0x0010 = .hardware ∧ m.slots.readPage 0x4014 = .sink ∧
      (m.read 0x4014).1 = 0 ∧ ((m.writeWord 0x0010 0xBBAA).read 0x4014).1 = 0xAA ∧
      ¬m.StaysInTrap (m.writeWord 0x0010 0xBBAA) := by
  intro m
  have h : m.Reachable := reachable_run .standard validate_largeCard _
  have hm := carries_of_powerOn powerOn_largeCard [.selectBank 2 0x80]
  have hpage : m.slots.readPage 0x0010 = .hardware := (hm.readPage_eq_hardware_iff 0x0010).mpr rfl
  have hsink : m.slots.readPage 0x4014 = .sink := by
    have hbank : m.slots.bankAt 0x4014 = 0x80 := rfl
    rw [hm.readPage_eq, hbank, Table.readPage_selected_of_not_inWindow (by decide)]
    rfl
  have hmisses := hm.missesTrap_of_hardware ((hm.hardware_iff 0x0010).mpr hpage) 0xBBAA
  have hbefore : (m.read 0x4014).1 = 0 := by
    have hblank : m.store.sink = .replicate sinkSize 0 := rfl
    rw [read_of_sink hsink, hblank, Array.getElem?_replicate, if_pos (by decide), Option.getD_some]
  have hafter : ((m.writeWord 0x0010 0xBBAA).read 0x4014).1 = 0xAA := by
    rw [hmisses.shown 0x4014 hsink, if_pos (by decide)]
    decide
  refine ⟨h, hpage, hsink, hbefore, hafter, fun hstays => ?_⟩
  rw [hmisses.confined.mp hstays, hbefore] at hafter
  exact absurd hafter (by decide)

end PcEngine.Machine
