/-!
# Durations

A duration is a whole number of nanoseconds of which the seconds fit 64 bits. Timeouts are kept in
whole milliseconds; going over to them drops what is below one.
-/

namespace DataGateway

/-- A span of time. -/
structure Duration where
  nanoseconds : Nat
  bounded : nanoseconds < 0x10000000000000000 * 1000000000
  deriving DecidableEq

namespace Duration

/-- A number of nanoseconds, as far as a duration goes. -/
def ofNanoseconds (n : Nat) : Duration :=
  ⟨min n (0x10000000000000000 * 1000000000 - 1), by omega⟩

def ofMillis (ms : UInt64) : Duration :=
  ⟨ms.toNat * 1000000, by have := ms.toNat_lt; omega⟩

/-- The longest duration. -/
def max : Duration := ⟨0x10000000000000000 * 1000000000 - 1, by omega⟩

def seconds (d : Duration) : Nat := d.nanoseconds / 1000000000

/-- What is below a second. -/
def subsecond (d : Duration) : Nat := d.nanoseconds % 1000000000

/-- The whole milliseconds in a duration. -/
def millis (d : Duration) : Nat := d.nanoseconds / 1000000

/-- The milliseconds until a duration is over. -/
def ticks (d : Duration) : Nat := (d.nanoseconds + 999999) / 1000000

end Duration

end DataGateway
