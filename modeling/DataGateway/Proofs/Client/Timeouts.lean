import DataGateway.Client.Config
import DataGateway.Client.Request
import DataGateway.Proofs.Reassembly

/-!
# Timeouts and their widths

A duration can hold a thousand times the milliseconds that 64 bits count. A page's timeout stops at
the most that the wire's field holds. A timeout of the settings does not: it keeps the milliseconds
modulo `2 ^ 64`, which is the saturated value below `2 ^ 64` milliseconds and at the last value
before each multiple, and nothing at all at the multiples themselves, where the settings are then
refused. `Narrows` says so of one setting, and `Narrows.of_kept` shows it of any that keeps a
duration's milliseconds as a word.
-/

namespace DataGateway

namespace Duration

/-- The whole milliseconds of a duration, or the most that 64 bits count. -/
def saturated (d : Duration) : Duration := .ofMillis (UInt64.ofNat (Min.min d.millis (2 ^ 64 - 1)))

@[simp] theorem ofMillis_nanoseconds (ms : UInt64) :
    (ofMillis ms).nanoseconds = ms.toNat * 1000000 := rfl

theorem ofMillis_inj {m n : UInt64} : ofMillis m = ofMillis n ↔ m = n := by
  constructor
  · intro h
    have hnanoseconds := congrArg nanoseconds h
    simp only [ofMillis_nanoseconds] at hnanoseconds
    exact UInt64.toNat_inj.1 (by omega)
  · rintro rfl
    rfl

theorem millis_mono {d d' : Duration} (h : d.nanoseconds ≤ d'.nanoseconds) :
    d.millis ≤ d'.millis :=
  Nat.div_le_div_right h

/-- The word of a duration's milliseconds is the saturated one for those that fit, and for the last
ones before a multiple of `2 ^ 64`. -/
theorem ofNat_millis_eq_iff (d : Duration) :
    UInt64.ofNat d.millis = UInt64.ofNat (Min.min d.millis (2 ^ 64 - 1)) ↔
      d.millis < 2 ^ 64 ∨ 2 ^ 64 ∣ d.millis + 1 := by
  rw [← UInt64.toNat_inj, UInt64.toNat_ofNat', UInt64.toNat_ofNat']
  omega

theorem ofNat_millis_eq_zero_iff (d : Duration) :
    UInt64.ofNat d.millis = 0 ↔ 2 ^ 64 ∣ d.millis := by
  rw [← UInt64.toNat_inj, UInt64.toNat_ofNat', UInt64.toNat_zero, Nat.dvd_iff_mod_eq_zero]

end Duration

/-- The wire's milliseconds saturate. -/
theorem Question.toInt_wireMillis (d : Duration) :
    (Question.wireMillis d).toInt = Min.min d.millis (2 ^ 63 - 1) := by
  unfold Question.wireMillis
  by_cases h : d.millis < 0x8000000000000000
  · rw [Fragmentation.toInt_long h]
    omega
  · rw [Fragmentation.long, if_neg h, Int64.toInt_maxValue]
    omega

namespace Config

/-- The complaint about a timeout of nothing. -/
def zeroTimeout : ConfigError := .invalid "timeouts must be positive"

theorem check_eq_zeroTimeout_iff (c : Config) :
    c.check = .error zeroTimeout ↔
      c.userName ≠ "" ∧ (c.connectMillis = 0 ∨ c.requestMillis = 0) := by
  unfold check zeroTimeout
  by_cases hname : c.userName = ""
  · simp [hname]
  by_cases hzero : c.connectMillis = 0 ∨ c.requestMillis = 0
  · simp [hname, hzero]
  · simp only [hname, hzero, if_false]
    split
    · simp
    · split <;> simp

/-- How a setting treats a duration that it is given: `set` stores it, `get` reads it back, and
`other` is the timeout that it leaves alone. -/
structure Narrows (set : Config → Duration → Config) (get : Config → Duration)
    (other : Config → UInt64) (c : Config) (d : Duration) : Prop where
  /-- The milliseconds are kept modulo `2 ^ 64`. -/
  nanoseconds : (get (set c d)).nanoseconds = d.millis % 2 ^ 64 * 1000000
  /-- They are cut off where they should be for durations that fit, and for a few that do not. -/
  saturates_iff : get (set c d) = d.saturated ↔ d.millis < 2 ^ 64 ∨ 2 ^ 64 ∣ d.millis + 1
  /-- Of durations that fit, a shorter one is kept as a shorter one. -/
  mono (d' : Duration) (h : d'.nanoseconds ≤ d.nanoseconds) (hfits : d.millis < 2 ^ 64) :
    (get (set c d')).nanoseconds ≤ (get (set c d)).nanoseconds
  /-- The settings are refused for a timeout of nothing exactly where nothing is left. -/
  refused_iff :
    (set c d).check = .error zeroTimeout ↔ c.userName ≠ "" ∧ (other c = 0 ∨ 2 ^ 64 ∣ d.millis)
  /-- A duration of a millisecond or more that fits does not have them refused so. -/
  accepted (hother : other c ≠ 0) (hmillis : 1 ≤ d.millis) (hfits : d.millis < 2 ^ 64) :
    (set c d).check ≠ .error zeroTimeout

/-- A setting that keeps the milliseconds as a word narrows them. -/
theorem Narrows.of_kept {set : Config → Duration → Config} {get : Config → Duration}
    {other : Config → UInt64} {c : Config} {d : Duration}
    (hkept : ∀ d, get (set c d) = .ofMillis (UInt64.ofNat d.millis))
    (hname : (set c d).userName = c.userName)
    (hzero : ((set c d).connectMillis = 0 ∨ (set c d).requestMillis = 0) ↔
      (other c = 0 ∨ UInt64.ofNat d.millis = 0)) : Narrows set get other c d := by
  have hnanoseconds : ∀ d, (get (set c d)).nanoseconds = d.millis % 2 ^ 64 * 1000000 := by
    intro d
    rw [hkept, Duration.ofMillis_nanoseconds, UInt64.toNat_ofNat']
  have hrefused : (set c d).check = .error zeroTimeout ↔
      c.userName ≠ "" ∧ (other c = 0 ∨ 2 ^ 64 ∣ d.millis) := by
    rw [check_eq_zeroTimeout_iff, hname, hzero, Duration.ofNat_millis_eq_zero_iff]
  refine ⟨hnanoseconds d, ?_, ?_, hrefused, ?_⟩
  · rw [hkept, Duration.saturated, Duration.ofMillis_inj, Duration.ofNat_millis_eq_iff]
  · intro d' h hfits
    have hmillis := Duration.millis_mono h
    rw [hnanoseconds, hnanoseconds, Nat.mod_eq_of_lt hfits,
      Nat.mod_eq_of_lt (Nat.lt_of_le_of_lt hmillis hfits)]
    exact Nat.mul_le_mul_right _ hmillis
  · intro hother hmillis hfits herror
    obtain hzero | hdvd := (hrefused.1 herror).2
    · exact hother hzero
    · exact Nat.not_dvd_of_pos_of_lt hmillis hfits hdvd

/-- Both timeouts of the settings are narrowed, where a page's timeout is cut off. -/
theorem timeouts_narrow (c : Config) (d : Duration) :
    Narrows withRequestTimeout requestTimeout connectMillis c d ∧
      Narrows withConnectTimeout connectTimeout requestMillis c d ∧
      (Question.wireMillis d).toInt = Min.min d.millis (2 ^ 63 - 1) := by
  refine ⟨?_, ?_, Question.toInt_wireMillis d⟩
  · exact .of_kept (fun _ => rfl) rfl Iff.rfl
  · exact .of_kept (fun _ => rfl) rfl or_comm

/-- The longest duration of all is kept as the longest timeout, and a second has no settings
refused. -/
theorem timeouts_narrow_longest :
    (withRequestTimeout {} .max).requestTimeout = Duration.max.saturated ∧
      (withConnectTimeout {} .max).connectTimeout = Duration.max.saturated ∧
      (withRequestTimeout {} (.ofMillis 1000)).check ≠ .error zeroTimeout ∧
      (withConnectTimeout {} (.ofMillis 1000)).check ≠ .error zeroTimeout := by
  have longest := timeouts_narrow {} .max
  have second := timeouts_narrow {} (.ofMillis 1000)
  exact ⟨longest.1.saturates_iff.2 (by decide), longest.2.1.saturates_iff.2 (by decide),
    second.1.accepted (by decide) (by decide) (by decide),
    second.2.1.accepted (by decide) (by decide) (by decide)⟩

/-- `2 ^ 64` milliseconds are kept as none: neither timeout is the saturated one, each is shorter
than what one millisecond is kept as, and sound settings are refused for it. -/
theorem timeouts_wrap :
    let d := Duration.ofNanoseconds (2 ^ 64 * 1000000)
    1 ≤ d.millis ∧ ({} : Config).check = .ok () ∧
      (withRequestTimeout {} d).requestTimeout ≠ d.saturated ∧
      (withConnectTimeout {} d).connectTimeout ≠ d.saturated ∧
      (withRequestTimeout {} d).requestTimeout.nanoseconds <
        (withRequestTimeout {} (.ofMillis 1)).requestTimeout.nanoseconds ∧
      (withConnectTimeout {} d).connectTimeout.nanoseconds <
        (withConnectTimeout {} (.ofMillis 1)).connectTimeout.nanoseconds ∧
      (withRequestTimeout {} d).check = .error zeroTimeout ∧
      (withConnectTimeout {} d).check = .error zeroTimeout := by
  decide

end Config

end DataGateway
