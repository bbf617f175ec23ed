import KitTemplate.Proofs.Rounding
import KitTemplate.Site.Date

/-! Dates and times. Up to 2 ^ 33 seconds before and after 1970, in the years from 1697 to 2242,
every time has a date, and what the date shows is less than a microsecond from the time by the local
clock (`date_of_isNear`). Rounding moves a number by half a unit of its last digit at most, so the
seconds in double precision lie less than half a microsecond from the time, and the nearest
microsecond less than one. It keeps the order of numbers, so unless the clock was set back in
between, an earlier time has no later date (`date_le_date`), and dates are ordered as the times are
where these are whole microseconds or two of them apart (`date_lt_date_iff`). -/

namespace KitTemplate

namespace Site

open Rounding

theorem unitsPerSecond_eq : unitsPerSecond = 4835703278458516698824704 := by decide

theorem nanosecond_eq : nanosecond = 4835703278458517 := by decide +kernel

/-- Seconds that lie less than half a microsecond from a time in nanoseconds, by more than what one
more rounding may add. -/
def IsClose (seconds time : Int) : Prop :=
  2 * (seconds * 1000000000 - time * unitsPerSecond).natAbs + 1000 * Nat.pow 2 49 <
    1000 * unitsPerSecond

/-- The microseconds in a number of seconds that is close to a time are less than one from it. -/
theorem microsecondsIn_error {seconds : Nat} {time : Int} (hclose : IsClose seconds time) :
    (microsecondsIn seconds * 1000 - time : Int).natAbs < 1000 := by
  rw [IsClose, unitsPerSecond_eq] at hclose
  rw [microsecondsIn, unitsPerSecond_eq]
  have hsplit := Nat.div_add_mod seconds 4835703278458516698824704
  have hpart := Nat.mod_lt seconds (show 0 < 4835703278458516698824704 by decide)
  generalize seconds / 4835703278458516698824704 = whole at *
  generalize seconds % 4835703278458516698824704 = part at *
  have hdigits : part * 1000000 < Nat.pow 2 (precision + 49) := by
    show _ < 5070602400912917605986812821504
    omega
  obtain ⟨hle, hge⟩ := toDouble_error hdigits
  generalize toDouble (part * 1000000) = fraction at *
  obtain ⟨hle', hge'⟩ :=
    nearest_error fraction (show 0 < 4835703278458516698824704 by decide)
  simp only [Nat.pow_eq, Nat.reducePow] at hle hge hclose
  omega

/-- A time less than 2 ^ 33 seconds from 1970. -/
def IsNear (instant : Instant) : Prop := instant.nanoseconds.natAbs < Nat.pow 2 33 * 1000000000

instance (instant : Instant) : Decidable (IsNear instant) := inferInstanceAs (Decidable (_ < _))

variable {instant other : Instant}

/-- The whole seconds of a near time are exact. -/
theorem secondsOf_eq (hnear : IsNear instant) :
    secondsOf instant =
      (instant.nanoseconds / 1000000000 * unitsPerSecond +
        toDouble ((instant.nanoseconds % 1000000000).toNat * nanosecond)).sign *
      toDouble (instant.nanoseconds / 1000000000 * unitsPerSecond +
        toDouble ((instant.nanoseconds % 1000000000).toNat * nanosecond)).natAbs := by
  have hwhole : (instant.nanoseconds / 1000000000).sign *
      toDouble (instant.nanoseconds / 1000000000).natAbs = instant.nanoseconds / 1000000000 := by
    rw [IsNear] at hnear
    rw [toDouble_of_lt, Int.sign_mul_natAbs]
    simp only [Nat.pow_eq, Nat.reducePow] at hnear
    show _ < 9007199254740992
    omega
  rw [secondsOf, hwhole]

/-- The seconds of a time in double precision are close to it. -/
theorem isClose_secondsOf (hnear : IsNear instant) :
    IsClose (secondsOf instant) instant.nanoseconds := by
  rw [secondsOf_eq hnear, IsClose]
  rw [IsNear] at hnear
  generalize instant.nanoseconds = time at *
  have hdigits : (time % 1000000000).toNat * nanosecond < Nat.pow 2 (precision + 29) := by
    rw [nanosecond_eq]
    show _ < 4835703278458516698824704
    omega
  obtain ⟨hle, hge⟩ := toDouble_error hdigits
  generalize toDouble ((time % 1000000000).toNat * nanosecond) = part at *
  generalize hsum : time / 1000000000 * unitsPerSecond + part = sum
  have hsize : sum.natAbs < Nat.pow 2 (precision + 62) := by
    rw [unitsPerSecond_eq] at hsum
    rw [nanosecond_eq] at hle hge
    simp only [Nat.pow_eq, Nat.reducePow] at hle hge hnear
    show _ < 41538374868278621028243970633760768
    omega
  have hseconds := signed_toDouble_error hsize
  generalize sum.sign * toDouble sum.natAbs = seconds at *
  rw [unitsPerSecond_eq] at hsum ⊢
  rw [nanosecond_eq] at hle hge
  simp only [Nat.pow_eq, Nat.reducePow] at hle hge hseconds ⊢
  omega

/-- The microseconds of a date are less than one from the time. -/
theorem microsecondsOf_error (hnear : IsNear instant) :
    (microsecondsOf instant * 1000 - instant.nanoseconds).natAbs < 1000 := by
  have hclose := isClose_secondsOf hnear
  rw [microsecondsOf]
  generalize secondsOf instant = seconds at *
  generalize instant.nanoseconds = time at *
  -- a time before 1970 is taken as far after it
  rcases Int.lt_trichotomy seconds 0 with hneg | rfl | hpos
  · have hmirror : IsClose seconds.natAbs (-time) := by
      rw [IsClose, unitsPerSecond_eq] at hclose ⊢
      simp only [Nat.pow_eq, Nat.reducePow] at hclose ⊢
      omega
    have herror := microsecondsIn_error hmirror
    rw [Int.sign_eq_neg_one_of_neg hneg]
    omega
  · rw [IsClose, unitsPerSecond_eq] at hclose
    simp only [Nat.pow_eq, Nat.reducePow] at hclose
    rw [Int.sign_zero]
    omega
  · have hsame : IsClose seconds.natAbs time := by rwa [Int.natAbs_of_nonneg (Int.le_of_lt hpos)]
    have herror := microsecondsIn_error hsame
    rw [Int.sign_eq_one_of_pos hpos]
    omega

theorem yearOf_bounds {second : Int} (hsecond : second.natAbs ≤ 17179869184) :
    1400 ≤ yearOf second ∧ yearOf second ≤ 2600 := by
  rw [yearOf, daysPerCycle, secondsPerDay, daysToEpoch]
  omega

theorem checkYear_of_bounds {year : Int} (habove : 1 ≤ year) (hbelow : year ≤ 9999) :
    checkYear year = .ok () := by
  have hword : year.bmod (Nat.pow 2 32) = year :=
    Int.bmod_eq_of_le (by simp; omega) (by simp; omega)
  rw [checkYear]
  rw [hword, if_neg, if_pos ⟨habove, hbelow⟩]
  show ¬ (year - 1900 < -2147483648 ∨ 2147483648 ≤ year - 1900)
  omega

/-- Every time up to 2 ^ 33 seconds before and after 1970 has a date, in every zone. -/
theorem date_of_isNear (zone : Zone) (hnear : IsNear instant) :
    date zone instant = .ok (microsecondsOf instant + zone.ahead (secondOf instant) * 1000000) := by
  have herror := microsecondsOf_error hnear
  have hsecond : (secondOf instant).natAbs ≤ 8589934593 := by
    rw [IsNear] at hnear
    rw [secondOf]
    simp only [Nat.pow_eq, Nat.reducePow] at hnear
    omega
  have hyear {second : Int} (hbound : second.natAbs ≤ 8589934593 + 86400 + 2 * 2147483648) :
      checkYear (yearOf (zone.shown second)) = .ok () := by
    have hahead := zone.bounded second
    simp only [Nat.pow_eq, Nat.reducePow] at hahead
    obtain ⟨habove, hbelow⟩ := yearOf_bounds (show (zone.shown second).natAbs ≤ _ by
      rw [Zone.shown]
      omega)
    exact checkYear_of_bounds (by omega) (by omega)
  have hbefore := zone.bounded (secondOf instant - secondsPerDay)
  have hnow := zone.bounded (secondOf instant)
  simp only [Nat.pow_eq, Nat.reducePow] at hbefore hnow
  have hgained : checkYear (yearOf (zone.shown (secondOf instant +
      (zone.ahead (secondOf instant) - zone.ahead (secondOf instant - secondsPerDay))))) = .ok () :=
    hyear (by omega)
  rw [date, hyear (by omega), hyear (by rw [secondsPerDay]; omega)]
  dsimp only
  rw [hgained]
  split <;> rfl

/-! ### The order of dates -/

theorem microsecondsIn_mono {seconds seconds' : Nat} (hle : seconds ≤ seconds') :
    microsecondsIn seconds ≤ microsecondsIn seconds' := by
  have hwhole : seconds / unitsPerSecond ≤ seconds' / unitsPerSecond := Nat.div_le_div_right hle
  rw [microsecondsIn, microsecondsIn]
  rcases Nat.lt_or_eq_of_le hwhole with hlt | heq
  · -- what is left of a second is never rounded to more than one
    have hpart : seconds % unitsPerSecond * 1000000 ≤ unitsPerSecond * 1000000 :=
      Nat.mul_le_mul_right _ (Nat.le_of_lt (Nat.mod_lt _ (by decide)))
    have hfraction : nearest (toDouble (seconds % unitsPerSecond * 1000000)) unitsPerSecond ≤
        nearest (toDouble (unitsPerSecond * 1000000)) unitsPerSecond :=
      nearest_mono (toDouble_mono hpart)
    rw [show nearest (toDouble (unitsPerSecond * 1000000)) unitsPerSecond = 1000000 by
      decide +kernel] at hfraction
    calc _ ≤ seconds / unitsPerSecond * 1000000 + 1000000 := Nat.add_le_add_left hfraction _
      _ = (seconds / unitsPerSecond + 1) * 1000000 := (Nat.add_one_mul _ _).symm
      _ ≤ seconds' / unitsPerSecond * 1000000 := Nat.mul_le_mul_right _ hlt
      _ ≤ _ := Nat.le_add_right _ _
  · have hsplit := Nat.div_add_mod seconds unitsPerSecond
    have hsplit' := Nat.div_add_mod seconds' unitsPerSecond
    have hfraction : nearest (toDouble (seconds % unitsPerSecond * 1000000)) unitsPerSecond ≤
        nearest (toDouble (seconds' % unitsPerSecond * 1000000)) unitsPerSecond := by
      refine nearest_mono (toDouble_mono (Nat.mul_le_mul_right _ ?_))
      rw [heq] at hsplit
      omega
    rw [heq]
    exact Nat.add_le_add_left hfraction _

theorem secondsOf_mono (hnear : IsNear instant) (hnear' : IsNear other)
    (hle : instant.nanoseconds ≤ other.nanoseconds) : secondsOf instant ≤ secondsOf other := by
  rw [secondsOf_eq hnear, secondsOf_eq hnear']
  refine signed_mono toDouble_mono ?_
  have hwhole : instant.nanoseconds / 1000000000 ≤ other.nanoseconds / 1000000000 := by omega
  rcases Int.lt_or_eq_of_le hwhole with hlt | heq
  · -- what is left of a second is never rounded to more than one
    have hpart : (instant.nanoseconds % 1000000000).toNat * nanosecond ≤
        1000000000 * nanosecond := Nat.mul_le_mul_right _ (by omega)
    have hfraction := toDouble_mono hpart
    rw [show toDouble (1000000000 * nanosecond) = unitsPerSecond by decide +kernel] at hfraction
    rw [unitsPerSecond_eq] at *
    omega
  · have hpart := toDouble_mono (Nat.mul_le_mul_right nanosecond
      (show (instant.nanoseconds % 1000000000).toNat ≤ (other.nanoseconds % 1000000000).toNat by
        omega))
    rw [heq]
    omega

theorem microsecondsOf_mono (hnear : IsNear instant) (hnear' : IsNear other)
    (hle : instant.nanoseconds ≤ other.nanoseconds) :
    microsecondsOf instant ≤ microsecondsOf other :=
  signed_mono microsecondsIn_mono (secondsOf_mono hnear hnear' hle)

/-- Two times that are not too far from 1970, between which the clock was not set back. -/
structure InOrder (zone : Zone) (instant other : Instant) : Prop where
  near : IsNear instant ∧ IsNear other
  forward : instant.nanoseconds < other.nanoseconds →
    zone.ahead (secondOf instant) ≤ zone.ahead (secondOf other)
  backward : other.nanoseconds < instant.nanoseconds →
    zone.ahead (secondOf other) ≤ zone.ahead (secondOf instant)

/-- Two such times that dates tell apart: they are whole microseconds, or two of them apart. -/
structure TellsApart (zone : Zone) (instant other : Instant) : Prop
    extends InOrder zone instant other where
  apart : 1000 ∣ instant.nanoseconds ∧ 1000 ∣ other.nanoseconds ∨
    2000 ≤ (instant.nanoseconds - other.nanoseconds).natAbs

theorem TellsApart.symm {zone : Zone} (htells : TellsApart zone instant other) :
    TellsApart zone other instant where
  near := htells.near.symm
  forward := htells.backward
  backward := htells.forward
  apart := htells.apart.imp And.symm fun hapart => by rwa [← Int.natAbs_neg, Int.neg_sub]

section Order

variable {zone : Zone} {date date' : Int} (hdate : Site.date zone instant = .ok date)
  (hdate' : Site.date zone other = .ok date')

include hdate hdate'

omit hdate' in
theorem eq_of_date (hnear : IsNear instant) :
    date = microsecondsOf instant + zone.ahead (secondOf instant) * 1000000 :=
  Except.ok.inj (hdate.symm.trans (date_of_isNear zone hnear))

/-- The date of an earlier time is not the later one. -/
theorem date_le_date (horder : InOrder zone instant other)
    (hlt : instant.nanoseconds < other.nanoseconds) : date ≤ date' := by
  obtain ⟨hnear, hnear'⟩ := horder.near
  rw [eq_of_date hdate hnear, eq_of_date hdate' hnear']
  have hahead := horder.forward hlt
  have hmicroseconds := microsecondsOf_mono hnear hnear' (Int.le_of_lt hlt)
  omega

/-- The date of an earlier time is the earlier one if dates tell the times apart. -/
theorem date_lt_date (htells : TellsApart zone instant other)
    (hlt : instant.nanoseconds < other.nanoseconds) : date < date' := by
  obtain ⟨hnear, hnear'⟩ := htells.near
  rw [eq_of_date hdate hnear, eq_of_date hdate' hnear']
  have hahead := htells.forward hlt
  have herror := microsecondsOf_error hnear
  have herror' := microsecondsOf_error hnear'
  rcases htells.apart with ⟨⟨whole, hwhole⟩, whole', hwhole'⟩ | hapart <;> omega

theorem date_lt_date_iff (htells : TellsApart zone instant other) :
    date < date' ↔ instant.nanoseconds < other.nanoseconds := by
  refine ⟨fun hlt => ?_, date_lt_date hdate hdate' htells⟩
  rcases Int.lt_trichotomy instant.nanoseconds other.nanoseconds with hbefore | hsame | hafter
  · exact hbefore
  · obtain rfl : instant = other := by
      cases instant
      cases other
      exact congrArg Instant.mk hsame
    rw [Except.ok.inj (hdate.symm.trans hdate')] at hlt
    exact absurd hlt (Int.lt_irrefl _)
  · exact absurd (date_lt_date hdate' hdate htells.symm hafter) (Int.lt_asymm hlt)

end Order

/-- In a night in which the clock is set back by an hour, a later time may have the earlier date. -/
example :
    let zone := Zone.ofAhead fun second => if second < 1635642000 then 7200 else 3600
    let shown (second : Int) := (date zone ⟨second * 1000000000⟩).toOption
    shown 1635641100 = some 1635648300000000 ∧ shown 1635643800 = some 1635647400000000 := by
  decide +kernel

end Site

end KitTemplate
