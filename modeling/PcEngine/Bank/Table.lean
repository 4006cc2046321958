/-
PcEngine/Bank/Table.lean

The bank table: what each of the 256 bank numbers points to.

    $00-$7F   ROM on the card, one bank per number
    $40-...   card RAM in place of ROM, if the card has any
    $F7       backup RAM
    $F8-$FB   work RAM, four times
    $FF       the hardware page

Every other number is unmapped and points to the sink.  Reading and writing
are looked up apart, because ROM is read-only: a number that reads ROM writes
to the sink.

The table depends only on the layout of the card (`Table.ofLayout`), with one
exception.  A card with more than 128 banks of ROM carries a page register:
selecting page `p` makes the numbers `$40-$7F` read the 64 banks of ROM from
number `64 * (p + 1)` on (`Table.selectRomPage`).
-/
import PcEngine.Bank.Repeat
import PcEngine.Bank.Page

namespace PcEngine

/-! ### Bank numbers -/

def bankCount : Nat := 256

/-- Numbers from here on never read ROM. -/
def romBankLimit : Nat := 0x80

def firstExtraRamBank : Nat := 0x40

def backupRamBank : Nat := 0xF7

def firstRamBank : Nat := 0xF8

def lastRamBank : Nat := 0xFB

def hardwareBank : Nat := 0xFF

/-- First of the numbers that the page register of a large card moves. -/
def romWindowFirst : Nat := 0x40

/-- How many numbers the page register moves. -/
def romWindowBanks : Nat := 0x40

/-! ### What a card asks for -/

/-- What the bank table is built from.

* `romBanks` — banks of ROM on the card;
* `extraBanks` — banks of RAM on the card;
* `repeatRom` — whether bank numbers past the end of the ROM read it again. -/
structure Layout where
  romBanks : Nat
  extraBanks : Nat
  repeatRom : Bool
  deriving DecidableEq

namespace Layout

/-- The bank of ROM that a number below `romBankLimit` reads. -/
def romBank? (l : Layout) (number : Nat) : Option Nat :=
  if number < l.romBanks then some number
  else if l.repeatRom then repeatedBank number l.romBanks
  else none

/-- The bank of card RAM that a number points to; at most 64 banks are
reachable. -/
def extraBank? (l : Layout) (number : Nat) : Option Nat :=
  if firstExtraRamBank ≤ number ∧
      number < firstExtraRamBank + min l.extraBanks (romBankLimit - firstExtraRamBank) then
    some (number - firstExtraRamBank)
  else none

/-- The pages that a number points to whatever is on the card. -/
def fixedPage? (number : Nat) : Option Page :=
  if number = backupRamBank then some .backup
  else if firstRamBank ≤ number ∧ number ≤ lastRamBank then some (.bank .ram 0)
  else if number = hardwareBank then some .hardware
  else none

/-- What reading through a bank number sees. -/
def readPage (l : Layout) (number : Nat) : Page :=
  match fixedPage? number, l.extraBank? number with
  | some page, _ => page
  | none, some block => .bank .extraRam block
  | none, none =>
    if number < romBankLimit then
      match l.romBank? number with
      | some block => .bank .rom block
      | none => .sink
    else .sink

/-- What writing through a bank number reaches. -/
def writePage (l : Layout) (number : Nat) : Page :=
  match fixedPage? number, l.extraBank? number with
  | some page, _ => page
  | none, some block => .bank .extraRam block
  | none, none => .sink

/-- What a bank number of the moved window reads once page `page` has been
selected; the image may end inside the page. -/
def romPage (l : Layout) (page number : Nat) : Page :=
  let block := romWindowBanks * (page + 1) + (number - romWindowFirst)
  if block < l.romBanks then .bank .rom block else .sink

end Layout

/-! ### The table -/

/-- What every bank number points to, for reading and for writing, and the
layout it was built from. -/
structure Table where
  read : Vector Page bankCount
  write : Vector Page bankCount
  layout : Layout

namespace Table

/-- The table of a card. -/
def ofLayout (l : Layout) : Table where
  read := .ofFn fun i => l.readPage i
  write := .ofFn fun i => l.writePage i
  layout := l

/-- A bank number as an index. -/
def indexOf (number : Byte) : Fin bankCount := ⟨number.toNat, number.toNat_lt⟩

/-- What reading through a bank number sees. -/
def readPage (t : Table) (number : Byte) : Page := t.read[indexOf number]

/-- What writing through a bank number reaches. -/
def writePage (t : Table) (number : Byte) : Page := t.write[indexOf number]

/-- Whether the card carries the page register: it has more ROM than bank
numbers for it. -/
def hasPageRegister (t : Table) : Bool := t.layout.romBanks > romBankLimit

/-- Make the numbers `$40-$7F` read the 64 banks of ROM that page `page`
holds. -/
def selectRomPage (t : Table) (page : Nat) : Table :=
  { t with
    read := .ofFn fun i =>
      if romWindowFirst ≤ i.val ∧ i.val < romWindowFirst + romWindowBanks then
        t.layout.romPage page i
      else t.read[i] }

/-! ### Looking up a built table -/

theorem readPage_ofLayout (l : Layout) (number : Byte) :
    (ofLayout l).readPage number = l.readPage number.toNat := by
  simp [readPage, ofLayout, indexOf]

theorem writePage_ofLayout (l : Layout) (number : Byte) :
    (ofLayout l).writePage number = l.writePage number.toNat := by
  simp [writePage, ofLayout, indexOf]

theorem readPage_selectRomPage (t : Table) (page : Nat) (number : Byte) :
    (t.selectRomPage page).readPage number =
      if romWindowFirst ≤ number.toNat ∧ number.toNat < romWindowFirst + romWindowBanks then
        t.layout.romPage page number.toNat
      else t.readPage number := by
  simp [readPage, selectRomPage, indexOf]

@[simp] theorem writePage_selectRomPage (t : Table) (page : Nat) (number : Byte) :
    (t.selectRomPage page).writePage number = t.writePage number := by
  simp only [writePage, selectRomPage]

end Table

end PcEngine
