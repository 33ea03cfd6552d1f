namespace Metronome

inductive FileError where
  | notFound
  | notDirectory
  | isDirectory
  | nameTooLong
  | zeroInName
  | notText
  | other (message : String)
  deriving DecidableEq, Repr

def FileError.message : FileError → String
  | notFound => "No such file or directory (os error 2)"
  | notDirectory => "Not a directory (os error 20)"
  | isDirectory => "Is a directory (os error 21)"
  | nameTooLong => "File name too long (os error 36)"
  | zeroInName => "file name contained an unexpected NUL byte"
  | notText => "stream did not contain valid UTF-8"
  | other message => message

abbrev Files := String → Except FileError ByteArray

namespace Files

def text (files : Files) (path : String) : Except FileError String :=
  match files path with
  | .error error => .error error
  | .ok bytes =>
    match String.fromUTF8? bytes with
    | some text => .ok text
    | none => .error .notText

def names (path : String) : List String :=
  (path.splitOn "/").filter fun name => name != "" && name != "."

def endsInDirectory (path : String) : Bool :=
  match (path.splitOn "/").getLast? with
  | some name => name == "" || name == "." || name == ".."
  | none => false

/-- Where names lead from: a place in or below a directory, or one above it, where there are only
directories of which nothing is known. -/
inductive Place where
  | within (names : List String)
  | above

/-- Follows names among the files that lie in or below a directory. A name is found too long only
where it would be looked up. -/
def follow (entries : List (List String × ByteArray)) (toDirectory : Bool) :
    Place → List String → Except FileError ByteArray
  | _, [] => .error .isDirectory
  | .above, ".." :: rest | .within [], ".." :: rest => follow entries toDirectory .above rest
  | .within place, ".." :: rest => follow entries toDirectory (.within place.dropLast) rest
  | place, name :: rest =>
    if name.utf8ByteSize > 255 then .error .nameTooLong
    else
      match place with
      | .above => .error .notFound
      | .within place =>
        let place := place ++ [name]
        match entries.find? (·.1 == place) with
        | some (_, bytes) => if toDirectory || rest ≠ [] then .error .notDirectory else .ok bytes
        | none =>
          if entries.any (place.isPrefixOf ·.1) then follow entries toDirectory (.within place) rest
          else .error .notFound

def ofDirectory (entries : List (String × ByteArray)) : Files := fun path =>
  if path.contains '\x00' then .error .zeroInName
  else if path.isEmpty then .error .notFound
  else if path.utf8ByteSize ≥ 4096 then .error .nameTooLong
  else
    follow (entries.map fun (path, bytes) => (names path, bytes)) (endsInDirectory path)
      (if path.startsWith "/" then .above else .within []) (names path)

end Files

end Metronome
