/-! Instants, and the clocks that show them. An instant is counted in nanoseconds, as file systems
count. A local clock is ahead of UTC by some seconds, or behind it, and may be set: where it is set
back, it shows the same time of day twice. -/

namespace KitTemplate

/-- An instant, in nanoseconds since the beginning of 1970 in UTC. -/
structure Instant where
  nanoseconds : Int
deriving DecidableEq, Repr

/-- The instant so many microseconds after the beginning of 1970. -/
def Instant.ofMicroseconds (microseconds : Int) : Instant := ⟨microseconds * 1000⟩

/-- A number that stands where an instant is expected counts microseconds. -/
instance : Coe Int Instant := ⟨.ofMicroseconds⟩

/-- A time zone: by how many seconds the local clock is ahead of UTC, in each second from 1970. -/
structure Zone where
  ahead : Int → Int
  bounded : ∀ second, (ahead second).natAbs ≤ Nat.pow 2 31

namespace Zone

def utc : Zone := ⟨fun _ => 0, fun _ => Nat.zero_le _⟩

/-- A zone with its offsets kept in words of 32 bits. -/
def ofAhead (ahead : Int → Int) : Zone where
  ahead second := (ahead second).bmod (Nat.pow 2 32)
  bounded second := by
    have hpos : 0 < Nat.pow 2 32 := Nat.pow_pos (by decide)
    have hle := Int.le_bmod (x := ahead second) hpos
    have hlt := Int.bmod_lt (x := ahead second) hpos
    simp only [Nat.pow_eq, Nat.reducePow] at *
    omega

/-- What the local clock shows in a second, counted as seconds of UTC are. -/
def shown (zone : Zone) (second : Int) : Int := second + zone.ahead second

end Zone

end KitTemplate
