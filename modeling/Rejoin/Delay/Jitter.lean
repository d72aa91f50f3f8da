import Rejoin.Duration
import Rejoin.Number.Binary64

/-! Random offsets for delays, in whole milliseconds. `Jitter.window` is the range an offset is
drawn from, and `Window.pick` reads an offset out of a drawn number. -/

namespace Rejoin

namespace Jitter

/-- The largest offset, in milliseconds. -/
def largest : Nat := 0x7fffffffffffffff

/-- The smallest offset, in milliseconds. -/
def smallest : Int := -0x8000000000000000

/-- The factor in whole percent. -/
def percent (factor : Binary64) : Nat :=
  ((Binary64.ofNat 100).mul factor).floorWithin 0xffffffff

/-- The share `factor` of the largest offset, for delays whose own share is beyond it. -/
def fallback (factor : Binary64) : Int :=
  ((Binary64.ofNat largest).mul factor).nearestWithin smallest largest

/-- How far an offset may lead away from a delay: its share in whole percent. -/
def offset (next : Duration) (factor : Binary64) : Int :=
  match next.times? (percent factor) with
  | some scaled =>
    let millis := (scaled.divide 100).millis
    if millis ≤ largest then millis else fallback factor
  | none => fallback factor

/-- A value held within signed 64-bit words. -/
def clamp (value : Int) : Int := max smallest (min largest value)

end Jitter

/-- The whole numbers from `low` up to but not including `high`. -/
structure Window where
  low : Int
  high : Int
  low_lt_high : low < high

namespace Window

/-- The member of a window that a drawn number stands for. -/
def pick (window : Window) (draw : Nat) : Int :=
  window.low + (draw % (window.high - window.low).toNat : Nat)

end Window

namespace Jitter

/-- The window from `low` to `high`; from zero to `high` where that is empty and `high` positive. -/
def windowOf (low high : Int) : Option Window :=
  if h : low < high then some ⟨low, high, h⟩
  else if h : 0 < high then some ⟨0, high, h⟩
  else none

/-- The offsets that keep a delay between `first` and `ceiling` and within its share. -/
def window (next first ceiling : Duration) (factor : Binary64) : Option Window :=
  let reach := offset next factor
  let low := max ((first.millis : Int) - next.millis) (-reach)
  let high := min ((ceiling.millis : Int) - next.millis) reach
  windowOf (clamp low) (clamp high)

/-- The offset that a drawn number stands for; zero where there is nothing to draw from. -/
def draw (next first ceiling : Duration) (factor : Binary64) (drawn : Nat) : Int :=
  match window next first ceiling factor with
  | some window => window.pick drawn
  | none => 0

end Jitter

/-- A delay moved by so many milliseconds, but not below zero or beyond the longest span. -/
def Duration.shift (delay : Duration) (millis : Int) : Duration :=
  let distance := Duration.ofNanos (millis.natAbs * Duration.perMilli)
  if 0 ≤ millis then delay.add distance else delay.sub distance

end Rejoin
