/-
PcEngine/Proofs/Sound/Batches.lean

Clocks may be passed to a channel in any number of batches.

A channel that is clocked divides the clocks that have come together, those of its
phase included, by its period: the quotient is how many samples fall due, the remainder
is the new phase.  So the phase is all that a channel has to know about earlier clocks,
and two batches make as many samples due as one (`due_add`).

Of the samples that are due only those that wait can be taken.  But a buffer that has run
dry stays dry and holds its last sample, so taking more than there is does no harm
(`SampleBuffer.discard_min`), and it does not matter in which of the batches the buffer
runs dry.

Nothing is assumed about the phase.  It may hold several periods, as it does after the
period has become shorter: then the first batch pays for them, even an empty one.

Main result: `clock_batches`, for any generator, any channel number and any batches.
-/
import Mathlib.Algebra.Order.Ring.Nat
import PcEngine.Proofs.Sound.Stream

namespace PcEngine.Sound

/-- What two batches of clocks make due is what falls due in the first, and what the
rest of it makes due together with the second. -/
theorem due_add {period : Nat} (h : 0 < period) (phase a b : Nat) :
    (phase + (a + b)) / period = (phase + a) / period + ((phase + a) % period + b) / period := by
  have hsplit : phase + (a + b) =
      period * ((phase + a) / period) + ((phase + a) % period + b) := by
    rw [← Nat.add_assoc, ← Nat.add_assoc, Nat.div_add_mod]
  rw [hsplit, Nat.mul_add_div h]

/-! ### One channel -/

namespace Channel

/-- A channel gives up the samples that fall due, as long as there are any. -/
theorem clock_eq (c : Channel) (clocks : Nat) :
    c.clock clocks =
      ((c.samples.discard ((c.phase + clocks) / c.period)).last,
        { c with
          phase := (c.phase + clocks) % c.period
          samples := c.samples.discard ((c.phase + clocks) / c.period) }) := by
  rw [clock, SampleBuffer.discard_min]

/-- **A channel can be clocked in two batches.** -/
theorem clock_clock (c : Channel) (a b : Nat) : (c.clock a).2.clock b = c.clock (a + b) := by
  have hfirst := congrArg Prod.snd (c.clock_eq a)
  -- clocks leave the frequency alone, so the second batch has the same period
  have hperiod : (c.clock a).2.period = c.period := by rw [hfirst]; rfl
  have hphase : (c.clock a).2.phase = (c.phase + a) % c.period := by rw [hfirst]
  have hsamples : (c.clock a).2.samples = c.samples.discard ((c.phase + a) / c.period) := by
    rw [hfirst]
  have hrest : ((c.phase + a) % c.period + b) % c.period = (c.phase + (a + b)) % c.period := by
    rw [Nat.mod_add_mod, Nat.add_assoc]
  rw [clock_eq (c.clock a).2 b, hperiod, hphase, hsamples, ← SampleBuffer.discard_add,
    ← due_add c.period_pos, hrest, hfirst, clock_eq c (a + b)]

end Channel

/-! ### A channel of the generator -/

namespace Generator

variable {g : Generator} {c : Channel} {n : Nat}

theorem clock_of_none (h : g.channel? n = none) (clocks : Nat) : g.clock n clocks = (0, g) := by
  rw [clock, h]

theorem clock_of_some (h : g.channel? n = some c) (clocks : Nat) :
    g.clock n clocks = ((c.clock clocks).1, g.modify n fun c => (c.clock clocks).2) := by
  rw [clock, h]

theorem modify_of_some (h : g.channel? n = some c) (f : Channel → Channel) :
    g.modify n f = { g with channels := g.channels.setIfInBounds n (f c) } := by
  rw [modify, h]

theorem channel?_modify_self (h : g.channel? n = some c) (f : Channel → Channel) :
    (g.modify n f).channel? n = some (f c) := by
  rw [channel?_modify, if_pos rfl, h, Option.map_some]

/-- What is done to a channel twice can be done at once. -/
theorem modify_modify (h : g.channel? n = some c) (f₁ f₂ : Channel → Channel) :
    (g.modify n f₁).modify n f₂ = g.modify n (f₂ ∘ f₁) := by
  rw [modify_of_some (channel?_modify_self h f₁), modify_of_some h, modify_of_some h]
  simp only [Vector.setIfInBounds_setIfInBounds, Function.comp_apply]

theorem clock_add (g : Generator) (n a b : Nat) :
    (g.clock n a).2.clock n b = g.clock n (a + b) := by
  rcases hc : g.channel? n with - | c
  · simp only [clock_of_none hc]
  · have hlater : (g.clock n a).2.channel? n = some (c.clock a).2 := by
      rw [clock_of_some hc]
      exact channel?_modify_self hc _
    have hboth : (fun c : Channel => (c.clock b).2) ∘ (fun c : Channel => (c.clock a).2) =
        fun c : Channel => (c.clock (a + b)).2 :=
      funext fun c => congrArg Prod.snd (c.clock_clock a b)
    rw [clock_of_some hlater, clock_of_some hc, clock_of_some hc, modify_modify hc, hboth,
      Channel.clock_clock]

/-! ### Any number of batches -/

/-- Batches before the last one only add to it. -/
theorem clock_run (g : Generator) (n : Nat) (batches : List Nat) (last : Nat) :
    (g.run (batches.map (.clock n))).clock n last = g.clock n (batches.sum + last) := by
  induction batches generalizing g with
  | nil => rw [List.sum_nil, Nat.zero_add]; rfl
  | cons first batches ih =>
    have hrun : g.run ((first :: batches).map (.clock n)) =
        (g.clock n first).2.run (batches.map (.clock n)) := rfl
    rw [hrun, ih, clock_add, List.sum_cons, Nat.add_assoc]

/-- **Clocks may come in any batches**: a channel that is clocked twice gives the sample,
and leaves the generator, as if it had been clocked once by all of them, and so does one
that is clocked any number of times. -/
theorem clock_batches (g : Generator) (n : Nat) :
    (∀ a b, (g.clock n a).2.clock n b = g.clock n (a + b)) ∧
      ∀ (batches : List Nat) (last : Nat),
        (g.run (batches.map (.clock n))).clock n last = g.clock n (batches.sum + last) :=
  ⟨g.clock_add n, g.clock_run n⟩

end Generator

end PcEngine.Sound
