/-
PcEngine/Proofs/Machine/Backup.lean

Backup RAM changes on purpose only.

What is saved must survive everything else that a machine can do.  Three kinds of
operations mean backup RAM (`MeansBackup`): the host restores it, or the processor
writes a byte or a word through a slot that shows the number `$F7`.  That no other
operation reaches it rests on one fact about the bank table: no other number writes
to a page of backup RAM (`Layout.eq_backupRamBank_of_writePage`), whichever page of ROM
is selected.

Where the three do reach it, they replace the cells that they name and keep all
others.  The 2 KiB are repeated in the window of the slot, so a byte has one cell
wherever it is written; a word has two, and its high byte is dropped behind the
last cell: it does not go to the first one.

Main result: `guardsBackup`, for every machine that can be reached.
-/
import PcEngine.Proofs.Machine.Cells

namespace PcEngine

/-! ### Pages of backup RAM -/

/-- Only one number writes to backup RAM, whatever is on the card. -/
theorem Layout.eq_backupRamBank_of_writePage {l : Layout} {number base span : Nat}
    (h : l.writePage number = .flat .backupRam base span) : number = backupRamBank := by
  rcases hfixed : fixedPage? number with - | page
  · rcases hextra : l.extraBank? number with - | block
    · rw [writePage_of_none hfixed hextra] at h
      cases h
    · simp only [writePage, hfixed, hextra] at h
      cases h
  · simp only [writePage, hfixed] at h
    subst h
    unfold fixedPage? at hfixed
    split at hfixed
    · assumption
    · -- work RAM and the hardware page are not backup RAM
      split at hfixed
      · cases hfixed
      · split at hfixed <;> cases hfixed

namespace Machine

variable {m : Machine} {rom : Array Byte} {card : Card} {settings : Settings}
variable {sel : Option Nat} {addr : Word} {base span : Nat} {op : Op} {ops : List Op}

/-! ### Operations that mean backup RAM -/

/-- Whether an operation means backup RAM: it restores it, or it writes through a slot
that shows it. -/
def MeansBackup (m : Machine) : Op → Prop
  | .write addr _ | .writeWord addr _ => m.ShowsBackup addr
  | .restoreBackup _ => True
  | _ => False

namespace Carries

theorem showsBackup_of_writePage (h : m.Carries rom card settings sel)
    (hpage : m.slots.writePage addr = .flat .backupRam base span) : m.ShowsBackup addr := by
  rw [h.writePage_eq, Table.writePage_selected] at hpage
  exact Layout.eq_backupRamBank_of_writePage hpage

theorem writePage_of_showsBackup (h : m.Carries rom card settings sel)
    (hshows : m.ShowsBackup addr) : m.slots.writePage addr = .backup := by
  rw [h.writePage_eq]
  exact Table.writePage_selected_of_fixedPage? hshows.fixedPage?

/-- A cell that is written through another slot is not one of backup RAM. -/
theorem backupRam_poke (h : m.Carries rom card settings sel) {region : Region}
    (hshows : ¬m.ShowsBackup addr) (hpage : m.slots.writePage addr = .flat region base span)
    (store : Store) (cell : Nat) (value : Byte) :
    (store.poke region cell value).backupRam = store.backupRam := by
  refine store.region_poke_of_ne (q := .backupRam) ?_ cell value
  rintro rfl
  exact hshows (h.showsBackup_of_writePage hpage)

/-- **An operation that does not mean backup RAM keeps it.** -/
theorem backupRam_step (h : m.Carries rom card settings sel) (hop : ¬m.MeansBackup op) :
    (m.step op).2.store.backupRam = m.store.backupRam := by
  have heff := m.step_effect op
  generalize (m.step op).2 = m' at heff ⊢
  cases heff with
  | devices _ _ hd => exact congrFun hd.region .backupRam
  | hardware _ hd => exact congrFun hd.region .backupRam
  | poke hpage => exact h.backupRam_poke hop hpage _ _ _
  | select hpage => exact h.backupRam_poke hop hpage _ _ _
  | @pokeWord addr value region cell hcell =>
    rcases hpage : m.slots.writePage addr with ⟨region', base, span⟩ | - <;>
      rw [hpage] at hcell <;> cases hcell
    · exact (h.backupRam_poke hop hpage _ _ _).trans (h.backupRam_poke hop hpage _ _ _)
    · -- through the hardware page, words go to the sink
      rfl
  | bank => rfl
  | backup => exact absurd trivial hop
  | reset => rfl

/-- Along a run, backup RAM stays as it is up to the first operation that means it. -/
theorem backupRam_run (h : m.Carries rom card settings sel)
    (hdiffers : (m.run ops).store.backupRam ≠ m.store.backupRam) :
    ∃ before op after, ops = before ++ op :: after ∧ (m.run before).MeansBackup op := by
  induction ops generalizing m sel with
  | nil => exact absurd rfl hdiffers
  | cons op ops ih =>
    by_cases hop : m.MeansBackup op
    · exact ⟨[], op, ops, rfl, hop⟩
    · rw [run_cons, ← h.backupRam_step hop] at hdiffers
      obtain ⟨before, later, after, rfl, hmeans⟩ := ih (h.step op) hdiffers
      exact ⟨op :: before, later, after, rfl, hmeans⟩

/-! ### The cells that they replace -/

theorem selectsRomPage_of_showsBackup (h : m.Carries rom card settings sel)
    (hshows : m.ShowsBackup addr) : m.selectsRomPage addr = false := by
  refine selectsRomPage_of_isRom ?_
  rw [h.readPage_eq, Table.readPage_selected_of_fixedPage? hshows.fixedPage?]
  rfl

theorem backupRam_write (h : m.Carries rom card settings sel) (hshows : m.ShowsBackup addr)
    (value : Byte) (k : Nat) :
    (m.write addr value).store.backupRam[k]? =
      if k = addr.toNat % backupRamSize then some value else m.store.backupRam[k]? := by
  have hwrites := h.writesCell (h.writePage_of_showsBackup hshows)
    (h.selectsRomPage_of_showsBackup hshows) value
  have hcell := hwrites.cells .backupRam k
  simp only [true_and, Nat.zero_add] at hcell
  exact hcell

theorem backupRam_writeWord (h : m.Carries rom card settings sel)
    (hshows : m.ShowsBackup addr) (value : Word) (k : Nat) :
    (m.writeWord addr value).store.backupRam[k]? =
      if k = addr.toNat % backupRamSize then some (Word.low value)
      else if k = addr.toNat % backupRamSize + 1 ∧ k < backupRamSize then
        some (Word.high value)
      else m.store.backupRam[k]? := by
  have hword : (m.slots.writePage addr).wordCell addr =
      (.backupRam, addr.toNat % backupRamSize) := by
    rw [h.writePage_of_showsBackup hshows, Page.backup, Page.wordCell, Nat.zero_add]
  have hcells := h.cells_writeWord hword value .backupRam k
  have hnext : k = addr.toNat % backupRamSize + 1 ∧
      addr.toNat % backupRamSize + 1 < backupRamSize ↔
      k = addr.toNat % backupRamSize + 1 ∧ k < backupRamSize :=
    and_congr_right fun e => by rw [e]
  rw [h.size .backupRam] at hcells
  simp only [true_and, hnext, Layout.regionSize] at hcells
  exact hcells

theorem backupRam_restoreBackup (h : m.Carries rom card settings sel) (data : Array Byte)
    (k : Nat) :
    (m.restoreBackup data).store.backupRam[k]? =
      if k < min data.size backupRamSize then data[k]? else m.store.backupRam[k]? := by
  have hsize : m.store.backupRam.size = backupRamSize := h.size .backupRam
  show (m.store.restoreBackup data).backupRam[k]? = _
  rw [Store.getElem?_restoreBackup, hsize]

end Carries

/-! ### Every machine -/

/-- What a machine does to backup RAM.

* `only` — an operation after which it differs means it (`MeansBackup`), and so does
  one of the operations of a run after which it differs (`run`);
* `size` — it has 2048 cells;
* `byte` — a byte replaces one cell;
* `word` — a word replaces two, or the last one;
* `restore` — saved bytes replace the first cells, as far as there are any of both. -/
structure GuardsBackup (m : Machine) : Prop where
  only : ∀ op, (m.step op).2.store.backupRam ≠ m.store.backupRam → m.MeansBackup op
  run : ∀ ops, (m.run ops).store.backupRam ≠ m.store.backupRam →
    ∃ before op after, ops = before ++ op :: after ∧ (m.run before).MeansBackup op
  size : m.store.backupRam.size = backupRamSize
  byte : ∀ addr, m.ShowsBackup addr → ∀ value k,
    (m.write addr value).store.backupRam[k]? =
      if k = addr.toNat % backupRamSize then some value else m.store.backupRam[k]?
  word : ∀ addr, m.ShowsBackup addr → ∀ value k,
    (m.writeWord addr value).store.backupRam[k]? =
      if k = addr.toNat % backupRamSize then some (Word.low value)
      else if k = addr.toNat % backupRamSize + 1 ∧ k < backupRamSize then
        some (Word.high value)
      else m.store.backupRam[k]?
  restore : ∀ data k, (m.restoreBackup data).store.backupRam[k]? =
    if k < min data.size backupRamSize then data[k]? else m.store.backupRam[k]?

/-- **Backup RAM changes on purpose only**, on every machine that can be reached. -/
theorem guardsBackup (h : m.Reachable) : m.GuardsBackup := by
  obtain ⟨rom, card, settings, sel, hm⟩ := h.carries
  refine ⟨?_, fun ops => hm.backupRam_run, hm.size .backupRam,
    fun addr => hm.backupRam_write, fun addr => hm.backupRam_writeWord,
    hm.backupRam_restoreBackup⟩
  intro op hdiffers
  exact Classical.byContradiction fun hop => hdiffers (hm.backupRam_step hop)

/-- With backup RAM in a slot, where a word at its end loses the high byte. -/
theorem guardsBackup_shown :
    let m := (boot largeImage largeCard .standard).run [.selectBank 3 0xF7]
    m.Reachable ∧ m.ShowsBackup 0x67FF ∧ m.GuardsBackup ∧
      ∀ value, (m.writeWord 0x67FF value).store.backupRam[0]? = m.store.backupRam[0]? := by
  intro m
  have h : m.Reachable := reachable_run .standard validate_largeCard _
  have hshows : m.ShowsBackup 0x67FF := rfl
  have hguards := guardsBackup h
  refine ⟨h, hshows, hguards, fun value => ?_⟩
  rw [hguards.word 0x67FF hshows value 0]
  rfl

end Machine

end PcEngine
