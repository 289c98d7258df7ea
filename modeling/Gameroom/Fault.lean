import Gameroom.Misfit

/-! The faults that stop an operation midway, each with its wording. -/
namespace Gameroom

/-- Why an operation stopped before its end. What it had done until then stays done. -/
inductive Fault where
  /-- A whole number beyond the range of floats was to become a float. -/
  | intTooLarge
  /-- The quotient of two whole numbers lies beyond the range of floats. -/
  | quotientTooLarge
  | infinityToInt
  | nanToInt
  /-- A clock reading beyond the seconds that a calendar counts. -/
  | timeTooLarge
  /-- A clock reading whose year does not fit the calendar's own counter. -/
  | timeUnrepresentable
  | timeNotANumber
  /-- A clock reading outside the years 1 to 9999. -/
  | yearOutOfRange (year : Int)
  | notAKey (kind : String)
  | roomClosed (room : String)
  | roomTaken (room : String)
  | listener (key : String)
  /-- A text that was to be a number is none; the text is given in quotes. -/
  | notANumber (quoted : String)
  | notReal (kind : String)
  /-- Values of these kinds have no order that a sign could ask for. -/
  | incomparable (sign left right : String)
  | uncombinable (operator left right : String)
  | notACondition (kind : String)
  | notConditions (kind : String)
  | notACombination (kind : String)
  | notPlayerData (kind : String)
  | notUpdates (kind : String)
  | notACount
  | noSamples
  | isFolder (quoted : String)
  | notAFolder (quoted : String)
  | nameTooLong (quoted : String)
  | zeroInPath
  /-- A logging level that is neither a whole number nor a text; the value is given as written. -/
  | badLevel (written : String)
  /-- A whole number written with more digits than are read. -/
  | tooManyDigits (digits : Nat)
  | listTooDeep
  | objectTooDeep
  | tooDeepToWrite
  | misfit (misfits : List Misfit)
deriving DecidableEq, Repr

namespace Fault

/-- The most digits a whole number may be written with. -/
def digitLimit : Nat := 4300

def message : Fault → String
  | intTooLarge => "int too large to convert to float"
  | quotientTooLarge => "integer division result too large for a float"
  | infinityToInt => "cannot convert float infinity to integer"
  | nanToInt => "cannot convert float NaN to integer"
  | timeTooLarge => "timestamp out of range for platform time_t"
  | timeUnrepresentable => "[Errno 75] Value too large for defined data type"
  | timeNotANumber => "Invalid value NaN (not a number)"
  | yearOutOfRange year => s!"year {year} is out of range"
  | notAKey kind => s!"unhashable type: '{kind}'"
  | roomClosed room => s!"Room {room} is closed"
  | roomTaken room => s!"Room {room} already exists"
  | listener key => s!"bad callback {key}"
  | notANumber quoted => s!"could not convert string to float: {quoted}"
  | notReal kind => s!"float() argument must be a string or a real number, not '{kind}'"
  | incomparable sign left right =>
    s!"'{sign}' not supported between instances of '{left}' and '{right}'"
  | uncombinable operator left right =>
    s!"unsupported operand type(s) for {operator}: '{left}' and '{right}'"
  | notACondition kind => s!"'{kind}' object has no attribute 'strip'"
  | notConditions kind => s!"'{kind}' object is not iterable"
  | notACombination kind => s!"'{kind}' object has no attribute 'upper'"
  | notPlayerData kind => s!"'{kind}' object is not a mapping"
  | notUpdates kind => s!"'{kind}' object has no attribute 'get'"
  | notACount => "slice indices must be integers or None or have an __index__ method"
  | noSamples => "integer modulo by zero"
  | isFolder quoted => s!"[Errno 21] Is a directory: {quoted}"
  | notAFolder quoted => s!"[Errno 20] Not a directory: {quoted}"
  | nameTooLong quoted => s!"[Errno 36] File name too long: {quoted}"
  | zeroInPath => "embedded null byte"
  | badLevel written => s!"Level not an integer or a valid string: {written}"
  | tooManyDigits digits =>
    s!"Exceeds the limit ({digitLimit} digits) for integer string conversion: value has " ++
      s!"{digits} digits; use sys.set_int_max_str_digits() to increase the limit"
  | listTooDeep =>
    "maximum recursion depth exceeded while decoding a JSON array from a unicode string"
  | objectTooDeep =>
    "maximum recursion depth exceeded while decoding a JSON object from a unicode string"
  | tooDeepToWrite =>
    "Error serializing to JSON: ValueError: Circular reference detected (depth exceeded)"
  | misfit misfits => s!"{misfits.length} values do not fit"

end Fault
end Gameroom
