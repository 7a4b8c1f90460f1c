import Mathlib.Algebra.Order.Ring.Int

/-!
# Bar widths and the session grid

The seconds of a bar, and the start of the bar that holds a stamp. A stamp counts microseconds of
the Indian wall clock from 1970.
-/

namespace Tradex.Domain

inductive Timeframe
  | m1
  | m5
  | m15
  | m30
  | h1
  | d1
  | w1
deriving DecidableEq, Repr

namespace Timeframe

def value : Timeframe → String
  | m1 => "1m"
  | m5 => "5m"
  | m15 => "15m"
  | m30 => "30m"
  | h1 => "1h"
  | d1 => "1d"
  | w1 => "1w"

def intervalSeconds : Timeframe → ℤ
  | m1 => 60
  | m5 => 300
  | m15 => 900
  | m30 => 1800
  | h1 => 3600
  | d1 => 86400
  | w1 => 604800

end Timeframe

def dayWall : ℤ := Timeframe.d1.intervalSeconds

def weekWall : ℤ := Timeframe.w1.intervalSeconds

def marketOpenWall : ℤ := 9 * 3600 + 15 * 60

def epochWeekday : ℤ := 3

def toWallSeconds (stamp : ℤ) : ℤ := stamp.tdiv 1000000

def bucketWallSeconds (wall seconds : ℤ) : ℤ :=
  if seconds = dayWall then wall - wall % dayWall
  else if seconds = weekWall then
    let midnight := wall - wall % dayWall
    let weekday := (midnight / dayWall + epochWeekday) % 7
    midnight - weekday * dayWall
  else marketOpenWall + (wall - marketOpenWall) / seconds * seconds

def bucketStart (stamp seconds : ℤ) : ℤ := bucketWallSeconds (toWallSeconds stamp) seconds

def istOffset : ℤ := 5 * 3600 + 30 * 60

def chartTime (start : ℤ) : ℤ := start - istOffset

end Tradex.Domain
