import Mathlib.Tactic

namespace UniDERP

def second : Int := 1000000000

/-- `time.Time{}`: January 1, year 1. -/
def zeroTime : Int := -62135596800 * second

/-- `t.Unix()`. -/
def unix (t : Int) : Int := t / second

/-- `time.Unix(s, 0)`. -/
def ofUnix (s : Int) : Int := s * second

/-- `t.Truncate(time.Second)`. -/
def truncate (t : Int) : Int := ofUnix (unix t)

/-- A time with the zone it is written in, in minutes east of UTC. -/
structure Stamp where
  time : Int
  zone : Int
  deriving DecidableEq, Repr

/-- `t.UTC()`. -/
def Stamp.utc (t : Int) : Stamp := ⟨t, 0⟩

def maxInt64 : ℕ := 2 ^ 63 - 1

/-- Successive readings of the wall clock inside one operation: `CLOCK_REALTIME`, past the
first second of the epoch and inside the kernel's nanosecond range.  Nothing orders them. -/
structure Clock where
  read : ℕ → Int
  past : ∀ i, second ≤ read i
  bounded : ∀ i, read i < 2 ^ 63

def Clock.still (t : Int) (h : second ≤ t) (h' : t < 2 ^ 63) : Clock :=
  ⟨fun _ => t, fun _ => h, fun _ => h'⟩

theorem Clock.unix_pos (c : Clock) (i : ℕ) : 0 < unix (c.read i) := by
  have h := c.past i
  unfold unix second at *
  omega

theorem Clock.ne_zeroTime (c : Clock) (i : ℕ) : c.read i ≠ zeroTime := by
  have h := c.past i
  unfold zeroTime second at *
  omega

@[simp] theorem unix_ofUnix (s : Int) : unix (ofUnix s) = s := by
  unfold unix ofUnix second
  omega

/-- A `time.Time` with the monotonic reading that `time.Now` adds to it. -/
structure Reading where
  wall : Int
  mono : Option Int
  deriving DecidableEq, Repr

namespace Reading

def ofWall (t : Int) : Reading := ⟨t, none⟩

/-- `a.Before(b)`: the monotonic readings decide if both times have one. -/
def before (a b : Reading) : Bool :=
  match a.mono, b.mono with
  | some x, some y => x < y
  | _, _ => a.wall < b.wall

def after (a b : Reading) : Bool := b.before a

/-- A `time.Duration` is cut to 64 bits. -/
def clamp (d : Int) : Int := max (-2 ^ 63) (min d (2 ^ 63 - 1))

def sub (a b : Reading) : Int :=
  match a.mono, b.mono with
  | some x, some y => clamp (x - y)
  | _, _ => clamp (a.wall - b.wall)

/-- `a.Add(d)`: the monotonic reading is dropped outside of 64 bits, or of the 33 bits of
seconds from 1885 on that a time with such a reading has. -/
def add (a : Reading) (d : Int) : Reading where
  wall := a.wall + d
  mono := a.mono.bind fun m =>
    if -2682288000 ≤ unix (a.wall + d) ∧ unix (a.wall + d) < -2682288000 + 2 ^ 33 ∧
      clamp (m + d) = m + d then some (m + d) else none

end Reading

end UniDERP
