namespace Metronome.Text

def utf8Bytes (text : List Char) : List UInt8 :=
  text.flatMap String.utf8EncodeChar

def utf8Text? (bytes : List UInt8) : Option (List Char) :=
  (String.fromUTF8? bytes.toByteArray).map String.toList

theorem utf8Bytes_append (left right : List Char) :
    utf8Bytes (left ++ right) = utf8Bytes left ++ utf8Bytes right := by
  simp [utf8Bytes]

theorem utf8Text?_utf8Bytes (text : List Char) : utf8Text? (utf8Bytes text) = some text := by
  have encoded : (utf8Bytes text).toByteArray = (String.ofList text).toByteArray := by
    rw [String.toByteArray_ofList]
    rfl
  have valid := (String.ofList text).isValidUTF8
  simp only [utf8Text?, encoded, String.fromUTF8?, valid, dite_true, Option.map_some]
  exact congrArg some (String.toList_ofList (l := text))

/-- The bytes up to the first line feed, which is among them, and the rest. -/
def splitLine : List UInt8 → List UInt8 × List UInt8
  | [] => ([], [])
  | byte :: rest =>
    if byte = 10 then ([byte], rest)
    else
      let (line, after) := splitLine rest
      (byte :: line, after)

theorem splitLine_append (bytes : List UInt8) : (splitLine bytes).1 ++ (splitLine bytes).2 = bytes := by
  induction bytes with
  | nil => rfl
  | cons byte rest ih => by_cases feed : byte = 10 <;> simp [splitLine, feed, ih]

end Metronome.Text
