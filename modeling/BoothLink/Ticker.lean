/-!
# Tickers

Something that is to happen every so often, on a clock that counts milliseconds. While the clock runs,
every tick comes when it is due. When the clock jumps past several due times at once, ticks are not made
up for: the next one is due a whole period after the late one, unless that was late by five milliseconds
at most.

* `Ticker`, `Ticker.every?`.
* `Ticker.next`, `Ticker.fires`: one tick, and all that are due after a jump.
* `Ticker.runs`: the ticks of a clock that runs on.
-/

namespace BoothLink

/-- A recurring event and when it is due next. -/
structure Ticker where
  period : Nat
  due : Nat
  period_pos : 0 < period
  deriving Repr

namespace Ticker

/-- How late a tick may be without moving those after it. -/
def tolerance : Nat := 5

/-- A ticker that is first due a period from now; there is none without a period. -/
def every? (period now : Nat) : Option Ticker :=
  if h : 0 < period then some ⟨period, now + period, h⟩ else none

def next (t : Ticker) (now : Nat) : Ticker :=
  { t with due := (if t.due + tolerance < now then now else t.due) + t.period }

theorem lt_due_next {t : Ticker} {now : Nat} (h : t.due ≤ now) : t.due < (t.next now).due := by
  have := t.period_pos
  simp only [next]
  split <;> omega

/-- How many ticks are due after the clock has jumped, and the ticker after them. -/
def fires (t : Ticker) (now : Nat) : Nat × Ticker :=
  if _h : t.due ≤ now then
    let (n, u) := fires (t.next now) now
    (n + 1, u)
  else (0, t)
termination_by now + 1 - t.due
decreasing_by
  have := lt_due_next (by assumption : t.due ≤ now)
  omega

/-- How many ticks come while the clock runs on to a time, and the ticker after them. -/
def runs (t : Ticker) (now : Nat) : Nat × Ticker :=
  let n := (now + t.period - t.due) / t.period
  (n, { t with due := t.due + n * t.period })

/-- Once the clock has run on, no tick is due. -/
theorem lt_due_runs (t : Ticker) (now : Nat) : now < (t.runs now).2.due := by
  have h := Nat.lt_div_mul_add t.period_pos (a := now + t.period - t.due)
  simp only [runs]
  omega

end Ticker

end BoothLink
