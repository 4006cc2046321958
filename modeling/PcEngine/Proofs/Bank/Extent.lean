/-
PcEngine/Proofs/Bank/Extent.lean

Every page lies inside its region, whatever the size of the card.

A page that starts at cell `base` and spans `span` cells reads and writes the
cells `base + a % span` only, so it lies inside a region of `n` cells as soon
as `base + (span - 1) < n` (`Page.Fits`, `Page.Fits.lt`).  A word access also
starts inside, on the hardware page too, since the sink is longer than a bank
by just the distance that such an access is moved (`Page.Fits.wordCell_lt`).

All pages also fill the window of a slot a whole number of times
(`Page.FillsWindow`), so a page and its slot never end at different places.

Main result: what a number points to, on either side of any table of a card, is
one of six kinds of page (`Layout.Offers`, `offers_readPage_selected`,
`offers_writePage_selected`), and these fit and fill the window (`Offers.fits`,
`Offers.fillsWindow`).  Nothing is asked of the card: the size of the ROM enters
through the repetition of banks, which never leaves the image
(`repeatedBank_lt`), and the number of card RAM banks only through the 64 that
can be reached.
-/
import PcEngine.Proofs.Bank.Selection

namespace PcEngine

/-! ### Repeated banks -/

theorem floorPow2_pos (n : Nat) : 0 < floorPow2 n := Nat.two_pow_pos n.log2

theorem floorPow2_le {n : Nat} (h : n ≠ 0) : floorPow2 n ≤ n := Nat.log2_self_le h

/-- The bank that answers for a number past the end is inside the image. -/
theorem repeatedBank_lt {number banks block : Nat}
    (h : repeatedBank number banks = some block) : block < banks := by
  unfold repeatedBank at h
  split at h
  · cases h
  · rename_i hb
    have hle := floorPow2_le hb
    have hpos := floorPow2_pos banks
    split at h
    · obtain rfl := Option.some.inj h
      exact Nat.mod_lt _ (by omega)
    · -- two chips: the first has a power of two of banks, the second the rest
      rename_i hp
      dsimp only at h
      split at h
      · obtain rfl := Option.some.inj h
        exact Nat.lt_of_lt_of_le (Nat.mod_lt _ hpos) hle
      · obtain rfl := Option.some.inj h
        have := Nat.mod_lt (number % 128 - 64) (y := banks - floorPow2 banks) (by omega)
        omega

theorem Layout.romBank?_lt {l : Layout} {number block : Nat}
    (h : l.romBank? number = some block) : block < l.romBanks := by
  unfold romBank? at h
  split at h
  · obtain rfl := Option.some.inj h
    assumption
  · split at h
    · exact repeatedBank_lt h
    · cases h

/-- At most as many banks of card RAM are reached as there are. -/
theorem Layout.extraBank?_lt {l : Layout} {number block : Nat}
    (h : l.extraBank? number = some block) : block < l.extraBanks := by
  unfold extraBank? at h
  split at h
  · obtain rfl := Option.some.inj h
    omega
  · cases h

/-! ### Pages inside regions -/

/-- How many cells the regions of a machine with a card have. -/
def Layout.regionSize (l : Layout) : Region → Nat
  | .rom => l.romBanks * bankSize
  | .ram => ramSize
  | .backupRam => backupRamSize
  | .extraRam => l.extraBanks * bankSize
  | .sink => sinkSize

namespace Page

variable {size : Region → Nat} {page : Page}

/-- A page is not empty, and its last cell is a cell of its region. -/
def Fits (size : Region → Nat) : Page → Prop
  | .flat region base span => 0 < span ∧ base + (span - 1) < size region
  | .hardware => True

/-- Whatever address is looked up on a page that fits, the cell exists. -/
theorem Fits.lt {region : Region} {base span : Nat} (h : (flat region base span).Fits size)
    (addr : Nat) : base + addr % span < size region := by
  obtain ⟨hpos, hlast⟩ := h
  have := Nat.mod_lt addr hpos
  omega

/-- The low byte of a word access exists, on the hardware page too. -/
theorem Fits.wordCell_lt (h : page.Fits size) (hsink : size .sink = sinkSize) (addr : Word) :
    (page.wordCell addr).2 < size (page.wordCell addr).1 := by
  rcases page with ⟨region, base, span⟩ | -
  · exact h.lt addr.toNat
  · -- the sink has room for a bank that is moved up by `trapOffset`
    have := Nat.mod_lt addr.toNat (y := bankSize) (by decide)
    simp only [wordCell, hsink, sinkSize]
    omega

theorem fits_bank {region : Region} {block blocks : Nat} (h : block < blocks)
    (hsize : blocks * bankSize ≤ size region) : (bank region block).Fits size := by
  refine ⟨by decide, ?_⟩
  -- the block ends where the next one would start, still inside the region
  have hblock : (block + 1) * bankSize ≤ blocks * bankSize := Nat.mul_le_mul_right _ h
  have hpos : 0 < bankSize := by decide
  rw [Nat.add_mul, Nat.one_mul] at hblock
  omega

/-- A page fills the window of a slot a whole number of times. -/
def FillsWindow : Page → Prop
  | .flat _ _ span => span ∣ bankSize
  | .hardware => True

end Page

/-! ### The pages of a card -/

namespace Layout

/-- The pages that a number can point to on a card. -/
inductive Offers (l : Layout) : Page → Prop
  | sink : Offers l .sink
  | backup : Offers l .backup
  | ram : Offers l (.bank .ram 0)
  | hardware : Offers l .hardware
  | rom {block : Nat} (h : block < l.romBanks) : Offers l (.bank .rom block)
  | extraRam {block : Nat} (h : block < l.extraBanks) : Offers l (.bank .extraRam block)

variable {l : Layout}

theorem offers_fixedPage? {number : Nat} {page : Page} (h : fixedPage? number = some page) :
    l.Offers page := by
  unfold fixedPage? at h
  split at h
  · cases h
    exact .backup
  · split at h
    · cases h
      exact .ram
    · split at h
      · cases h
        exact .hardware
      · cases h

theorem offers_readPage (l : Layout) (number : Nat) : l.Offers (l.readPage number) := by
  rcases hf : fixedPage? number with - | page
  · rcases hx : l.extraBank? number with - | block
    · -- no fixed page and no card RAM: the sink, or a bank of ROM
      rcases readPage_of_none hf hx with e | ⟨block, hblock, e⟩
      · exact e ▸ .sink
      · exact e ▸ .rom (romBank?_lt hblock)
    · simp only [readPage, hf, hx]
      exact .extraRam (extraBank?_lt hx)
  · simp only [readPage, hf]
    exact offers_fixedPage? hf

theorem offers_writePage (l : Layout) (number : Nat) : l.Offers (l.writePage number) := by
  rcases hf : fixedPage? number with - | page
  · rcases hx : l.extraBank? number with - | block
    · exact writePage_of_none hf hx ▸ .sink
    · simp only [writePage, hf, hx]
      exact .extraRam (extraBank?_lt hx)
  · simp only [writePage, hf]
    exact offers_fixedPage? hf

/-- The last page of a short image ends in the sink, not past the image. -/
theorem offers_romPage (l : Layout) (page number : Nat) : l.Offers (l.romPage page number) := by
  rcases l.romPage_cases page number with e | ⟨block, hblock, e⟩
  · exact e ▸ .sink
  · exact e ▸ .rom hblock

namespace Offers

variable {page : Page}

/-- **Every page of a card lies inside its region.** -/
theorem fits (h : l.Offers page) : page.Fits l.regionSize := by
  cases h with
  | sink => exact Page.fits_bank Nat.one_pos (show 1 * bankSize ≤ sinkSize by decide)
  | backup => exact ⟨by decide, show 0 + (backupRamSize - 1) < backupRamSize by decide⟩
  | ram => exact Page.fits_bank Nat.one_pos (show 1 * bankSize ≤ ramSize by decide)
  | hardware => trivial
  | rom h => exact Page.fits_bank h (Nat.le_refl _)
  | extraRam h => exact Page.fits_bank h (Nat.le_refl _)

/-- **Every page of a card fills the window of its slot.**  Backup RAM is the only
one that is seen there more than once. -/
theorem fillsWindow (h : l.Offers page) : page.FillsWindow := by
  cases h with
  | backup => exact ⟨4, rfl⟩
  | hardware => trivial
  | sink | ram | rom | extraRam => exact Nat.dvd_refl bankSize

end Offers

end Layout

namespace Table

variable {l : Layout} {sel : Option Nat} {number : Byte}

theorem offers_readPage_selected : l.Offers ((selected l sel).readPage number) := by
  rcases readPage_selected_cases l sel number with e | ⟨-, page, -, e⟩
  · exact e ▸ l.offers_readPage number.toNat
  · exact e ▸ l.offers_romPage page number.toNat

theorem offers_writePage_selected : l.Offers ((selected l sel).writePage number) := by
  rw [writePage_selected]
  exact l.offers_writePage number.toNat

end Table

end PcEngine
