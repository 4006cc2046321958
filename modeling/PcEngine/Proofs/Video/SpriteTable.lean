/-
PcEngine/Proofs/Video/SpriteTable.lean

When the sprite table is copied, and what the copy is.

The renderer calls a hook at every vertical blank.  Mostly it does nothing; the call is a
transfer if it copies the sprite table, whatever video memory holds (`Transfers`).  The
code looks at a flag and at a bit of the transfer control register.  The flag is told here
by the history: it is up exactly if the high byte of the table register has been written
and neither a transfer nor a reset has come since (`requestedSince_iff`).  The low byte of
the table register, or the bit, may still be written between request and transfer: both
are taken as they are at the call.

What an operation does to the flag and to sprite memory is one of four things
(`SpriteStep`), and the run lemmas follow from that by `iff_since` and `latest_iff`.
Operations are given the video memory that they use, each its own, so it does not matter
what becomes of video memory between them.

Main result: `copiesTable_run`, for every run from power-on.
-/
import PcEngine.Proofs.History
import PcEngine.Proofs.Video.Pending

namespace PcEngine.Video

namespace Controller

/-! ### Transfers -/

/-- The sprite table as it stands in video memory: from the word that the table register
points to, and around the end of video memory. -/
def tableIn (c : Controller) (vram : Vram) : Vector Word spriteWords :=
  .ofFn fun i => vram.cells.get
    ⟨((c.register Register.spriteTable).toNat + i.val) % vramWords, Nat.mod_lt _ (by decide)⟩

/-- Whether the hook is a transfer if it is called now: it leaves the table in sprite
memory, whatever video memory holds. -/
def Transfers (c : Controller) : Prop :=
  ∀ vram, (c.serviceSprites vram).2.sprites = c.tableIn vram

/-- The bit of the transfer control register that asks for a transfer at every call. -/
def repeats (c : Controller) : Bool := Word.bit (c.register Register.transferControl) 4

/-- The bit of the transfer control register that enables the event of the transfer. -/
def announces (c : Controller) : Bool := Word.bit (c.register Register.transferControl) 0

/-- A controller after a transfer. -/
def copied (c : Controller) (vram : Vram) : Controller :=
  { c with
    sprites := c.tableIn vram
    spritesPending := false
    status := c.status ||| Event.spriteTransferDone.statusBit
    pending := if c.announces then c.pending.push .spriteTransferDone else c.pending }

variable {c c' : Controller} {op : Op} {ops : List Op} {vram : Vram}
variable {table : Vector Word spriteWords}

/-- Addresses wrap where the words of the table do. -/
theorem ofFn_read_eq_tableIn (c : Controller) (vram : Vram) :
    (Vector.ofFn fun i : Fin spriteWords =>
      vram.read (c.register Register.spriteTable + UInt16.ofNat i.val)) = c.tableIn vram := by
  refine congrArg Vector.ofFn (funext fun i => ?_)
  refine congrArg vram.cells.get (Fin.ext ?_)
  have hi := i.isLt
  simp only [spriteWords, vramWords, Vram.cellOf, UInt16.toNat_add, UInt16.toNat_ofNat'] at hi ⊢
  omega

theorem serviceSprites_of_due (h : (c.spritesPending || c.repeats) = true) (vram : Vram) :
    c.serviceSprites vram = (c.announces, c.copied vram) := by
  rw [repeats] at h
  rw [serviceSprites, if_pos h]
  refine Prod.ext (raise_fst _ _) ?_
  rw [raise_snd, ofFn_read_eq_tableIn]
  rfl

theorem serviceSprites_of_not_due (h : (c.spritesPending || c.repeats) = false) (vram : Vram) :
    c.serviceSprites vram = (false, c) := by
  rw [serviceSprites]
  exact if_neg (Bool.eq_false_iff.mp h)

/-- **A call is a transfer exactly if one is due**, by the flag or by the bit. -/
theorem transfers_iff : c.Transfers ↔ c.spritesPending = true ∨ c.repeats = true := by
  rw [← Bool.or_eq_true]
  constructor
  · intro htransfers
    by_contra hdue
    -- otherwise sprite memory would be the table of any two memories
    have hkept : ∀ vram, c.sprites = c.tableIn vram := by
      intro vram
      rw [← htransfers vram, serviceSprites_of_not_due (Bool.eq_false_iff.mpr hdue)]
    have hblank := hkept .blank
    rw [hkept ⟨.replicate vramWords 1⟩] at hblank
    have hword := congrArg (·.get ⟨0, by decide⟩) hblank
    simp [tableIn, Vram.blank, Vector.get] at hword
  · intro hdue vram
    rw [serviceSprites_of_due hdue]
    rfl

theorem serviceSprites_of_transfers (h : c.Transfers) (vram : Vram) :
    c.serviceSprites vram = (c.announces, c.copied vram) :=
  serviceSprites_of_due ((Bool.or_eq_true _ _).mpr (transfers_iff.mp h)) vram

theorem serviceSprites_of_not_transfers (h : ¬c.Transfers) (vram : Vram) :
    c.serviceSprites vram = (false, c) := by
  refine serviceSprites_of_not_due ?_ vram
  rw [transfers_iff, ← Bool.or_eq_true] at h
  exact Bool.eq_false_iff.mpr h

/-! ### What operations do to flag and sprite memory -/

/-- Whether an operation asks for a transfer: it writes the high byte of the table
register. -/
def Requests (c : Controller) : Op → Prop
  | .writeHigh _ _ => c.selected = Register.spriteTable
  | _ => False

/-- Whether an operation is a transfer, and of which table. -/
def Copies (table : Vector Word spriteWords) (c : Controller) : Op → Prop
  | .serviceSprites vram => c.Transfers ∧ c.tableIn vram = table
  | _ => False

/-- Whether an operation settles what has been asked for: it is a transfer or a reset. -/
def Settles (c : Controller) (op : Op) : Prop :=
  EndsShown Copies (fun _ op => op = .reset) c op

theorem settles_serviceSprites : c.Settles (.serviceSprites vram) ↔ c.Transfers := by
  constructor
  · rintro (hreset | ⟨table, htransfers, -⟩)
    · cases hreset
    · exact htransfers
  · exact fun htransfers => .inr ⟨_, htransfers, rfl⟩

theorem settles_reset : c.Settles .reset := .inl rfl

/-- Other operations settle nothing. -/
theorem not_settles (hservice : ∀ vram, op ≠ .serviceSprites vram) (hreset : op ≠ .reset) :
    ¬c.Settles op := by
  rintro (h | ⟨table, h⟩)
  · exact hreset h
  · cases op with
    | serviceSprites vram => exact hservice vram rfl
    | _ => exact h.elim

/-- What an operation does to the flag and to sprite memory. -/
inductive SpriteStep (c : Controller) (op : Op) (c' : Controller) : Prop
  | requested (hrequests : c.Requests op) (hsettles : ¬c.Settles op)
      (hflag : c'.spritesPending = true) (hsprites : c'.sprites = c.sprites)
  | transferred (table : Vector Word spriteWords) (hrequests : ¬c.Requests op)
      (hcopies : Copies table c op) (hflag : c'.spritesPending = false)
      (hsprites : c'.sprites = table)
  | reset (hop : op = .reset) (hflag : c'.spritesPending = false)
      (hsprites : c'.sprites = powerOn.sprites)
  | kept (hrequests : ¬c.Requests op) (hsettles : ¬c.Settles op)
      (hflag : c'.spritesPending = c.spritesPending) (hsprites : c'.sprites = c.sprites)

theorem sprites_transfer (c : Controller) (vram : Vram) :
    (c.transfer vram).2.1.spritesPending = c.spritesPending ∧
      (c.transfer vram).2.1.sprites = c.sprites := by
  simp only [transfer, raise_snd]
  exact ⟨rfl, rfl⟩

theorem writeHigh_of_spriteTable (h : c.selected = Register.spriteTable) (value : Byte)
    (vram : Vram) :
    (c.writeHigh value vram).2.1.spritesPending = true ∧
      (c.writeHigh value vram).2.1.sprites = c.sprites := by
  have hselected : ∀ w, (c.setRegister c.selected w).selected = Register.spriteTable := fun _ => h
  have hdata : ¬Register.spriteTable = Register.data := by decide
  have hlength : ¬Register.spriteTable = Register.transferLength := by decide
  simp only [writeHigh, hselected, if_neg hdata, if_neg hlength, if_true, true_and]
  rfl

theorem writeHigh_of_ne_spriteTable (h : c.selected ≠ Register.spriteTable) (value : Byte)
    (vram : Vram) :
    (c.writeHigh value vram).2.1.spritesPending = c.spritesPending ∧
      (c.writeHigh value vram).2.1.sprites = c.sprites := by
  unfold writeHigh
  dsimp only
  split
  · exact ⟨rfl, rfl⟩
  · split
    · exact sprites_transfer _ _
    · split
      · exact absurd ‹_› h
      · exact ⟨rfl, rfl⟩

theorem readHigh_sprites (c : Controller) (vram : Vram) :
    (c.readHigh vram).2.spritesPending = c.spritesPending ∧
      (c.readHigh vram).2.sprites = c.sprites := by
  unfold readHigh
  split <;> exact ⟨rfl, rfl⟩

theorem raise_sprites (c : Controller) (e : Event) :
    (c.raise e).2.spritesPending = c.spritesPending ∧ (c.raise e).2.sprites = c.sprites := by
  rw [raise_snd]
  exact ⟨rfl, rfl⟩

theorem writeHigh_spriteStep (c : Controller) (value : Byte) (vram : Vram) :
    c.SpriteStep (.writeHigh value vram) (c.writeHigh value vram).2.1 := by
  have hsettles : ¬c.Settles (.writeHigh value vram) := not_settles (by simp) (by simp)
  by_cases h : c.selected = Register.spriteTable
  · obtain ⟨hflag, hsprites⟩ := writeHigh_of_spriteTable h value vram
    exact .requested h hsettles hflag hsprites
  · obtain ⟨hflag, hsprites⟩ := writeHigh_of_ne_spriteTable h value vram
    exact .kept h hsettles hflag hsprites

theorem serviceSprites_spriteStep (c : Controller) (vram : Vram) :
    c.SpriteStep (.serviceSprites vram) (c.serviceSprites vram).2 := by
  by_cases h : c.Transfers
  · rw [serviceSprites_of_transfers h]
    exact .transferred (c.tableIn vram) id ⟨h, rfl⟩ rfl rfl
  · rw [serviceSprites_of_not_transfers h]
    exact .kept id (mt settles_serviceSprites.mp h) rfl rfl

/-- **What every operation does to flag and sprite memory.** -/
theorem step_spriteStep (c : Controller) (op : Op) : c.SpriteStep op (c.step op).2 := by
  cases op with
  | writeHigh value vram => exact c.writeHigh_spriteStep value vram
  | serviceSprites vram => exact c.serviceSprites_spriteStep vram
  | reset => exact .reset rfl rfl rfl
  | readHigh vram =>
    obtain ⟨hflag, hsprites⟩ := c.readHigh_sprites vram
    exact .kept id (not_settles (by simp) (by simp)) hflag hsprites
  | raise e =>
    obtain ⟨hflag, hsprites⟩ := c.raise_sprites e
    exact .kept id (not_settles (by simp) (by simp)) hflag hsprites
  | select value | writeLow value | readStatus | setBusy busy | popEvent | takeModeChange =>
    exact .kept id (not_settles (by simp) (by simp)) rfl rfl

/-! ### Runs -/

theorem run_concat (c : Controller) (ops : List Op) (op : Op) :
    c.run (ops ++ [op]) = ((c.run ops).step op).2 :=
  List.foldl_append

/-- Along a run from power-on, a transfer has been asked for, and neither a transfer nor a
reset has come since. -/
def RequestedSince (ops : List Op) : Prop :=
  Since (fun c op => (c.step op).2) Requests Settles powerOn ops

/-- The table that the last transfer of a run from power-on has copied; blank if none has
come since the last reset. -/
def LastCopied (ops : List Op) (table : Vector Word spriteWords) : Prop :=
  Latest (fun c op => (c.step op).2) Copies (fun _ op => op = .reset) powerOn.sprites powerOn
    ops table

/-- The flag after an operation. -/
theorem spritesPending_step (c : Controller) (op : Op) :
    (c.step op).2.spritesPending = true ↔
      c.Requests op ∨ c.spritesPending = true ∧ ¬c.Settles op := by
  have hstep := c.step_spriteStep op
  generalize (c.step op).2 = c' at hstep
  cases hstep with
  | requested hrequests _ hflag => simp [hrequests, hflag]
  | transferred table hrequests hcopies hflag =>
    have hsettles : c.Settles op := .inr ⟨table, hcopies⟩
    simp [hrequests, hsettles, hflag]
  | reset hop hflag =>
    subst hop
    simp [Requests, settles_reset, hflag]
  | kept hrequests hsettles hflag => simp [hrequests, hsettles, hflag]

/-- The flag tells that a transfer has been asked for. -/
theorem requestedSince_iff (ops : List Op) :
    (powerOn.run ops).spritesPending = true ↔ RequestedSince ops := by
  refine iff_since (fun ops => (powerOn.run ops).spritesPending = true) (fun _ => True) ?_ ?_ ops
    fun _ _ => trivial
  · exact Bool.false_ne_true
  · intro ops op _
    rw [run_concat]
    exact spritesPending_step _ op

/-- An operation that settles nothing leaves sprite memory alone. -/
theorem sprites_step_of_not_settles (h : ¬c.Settles op) : (c.step op).2.sprites = c.sprites := by
  have hstep := c.step_spriteStep op
  generalize (c.step op).2 = c' at hstep
  cases hstep with
  | requested _ _ _ hsprites => exact hsprites
  | transferred table _ hcopies => exact absurd (.inr ⟨table, hcopies⟩) h
  | reset hop => exact absurd (hop ▸ settles_reset) h
  | kept _ _ _ hsprites => exact hsprites

theorem sprites_step_of_copies (h : Copies table c op) : (c.step op).2.sprites = table := by
  cases op with
  | serviceSprites vram =>
    obtain ⟨htransfers, rfl⟩ := h
    exact htransfers vram
  | _ => exact h.elim

/-- Sprite memory holds what the last transfer has copied. -/
theorem lastCopied_iff (ops : List Op) (table : Vector Word spriteWords) :
    LastCopied ops table ↔ (powerOn.run ops).sprites = table := by
  have hstart : sprites powerOn = .replicate spriteWords 0 := rfl
  refine latest_iff ?_ ?_ ?_ hstart ops table
  · exact fun c op table => sprites_step_of_copies
  · rintro c op rfl -
    rfl
  · exact fun c op => sprites_step_of_not_settles

/-- How the sprite table is copied after a run from power-on.

* `transfers` — a call of the hook is a transfer exactly if one has been asked for since
  the last transfer or reset, or if the transfer control register repeats it;
* `done` — a transfer copies the table that the table register points to, puts its event
  into the status latch and takes the request back; it queues the event if that is enabled,
  and says so;
* `idle` — a call that is no transfer changes nothing and says that no event was queued;
* `sprites` — sprite memory holds the table that the last transfer has copied, as it stood
  in the video memory of that time;
* `kept` — for nothing but a transfer or a reset changes sprite memory. -/
structure CopiesTable (ops : List Op) : Prop where
  transfers : (powerOn.run ops).Transfers ↔
    RequestedSince ops ∨ (powerOn.run ops).repeats = true
  done : (powerOn.run ops).Transfers → ∀ vram,
    (powerOn.run ops).serviceSprites vram =
      ((powerOn.run ops).announces, (powerOn.run ops).copied vram)
  idle : ¬(powerOn.run ops).Transfers → ∀ vram,
    (powerOn.run ops).serviceSprites vram = (false, powerOn.run ops)
  sprites : ∀ table, LastCopied ops table ↔ (powerOn.run ops).sprites = table
  kept : ∀ op, ¬(powerOn.run ops).Settles op →
    ((powerOn.run ops).step op).2.sprites = (powerOn.run ops).sprites

/-- **The sprite table is copied when that has been asked for, as it stands in video memory
then**, after every run from power-on. -/
theorem copiesTable_run (ops : List Op) : CopiesTable ops := by
  refine ⟨?_, serviceSprites_of_transfers, serviceSprites_of_not_transfers, lastCopied_iff ops,
    fun op => sprites_step_of_not_settles⟩
  rw [transfers_iff, requestedSince_iff]

end Controller

end PcEngine.Video
