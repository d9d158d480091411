import ServicePlatform.Contract.UserEvents
import ServicePlatform.Text.Timestamp

/-! The text of an instant names a day of the calendar. Days are counted in eras
of 400 years that begin in March, so the leap day is the last of its year. -/
namespace ServicePlatform

open Text

namespace DateTime

/-- What a `datetime` can hold: the years from 1 to 9999. -/
def InRange (t : DateTime) : Prop := -719162 ≤ t / 86400000000 ∧ t / 86400000000 ≤ 2932896

namespace DayOfEra

variable {doe c o y doy : Int}

end DayOfEra

end DateTime

end ServicePlatform
