import ModelBroker.Python.Text

/-!
# Python's paths

`pathlib.Path` on a POSIX system: a root and the parts between slashes, without
empty parts and without `.`.
-/

namespace ModelBroker.Python

/-- A `Path`: its root (`""`, `"/"` or `"//"`) and its parts. -/
structure Path where
  root : String
  parts : List String
  deriving DecidableEq

namespace Path

/-- The pieces of a text between slashes, given the one that has begun. -/
def pieces (begun : List Char) : List Char → List (List Char)
  | [] => [begun]
  | c :: rest => if c = '/' then begun :: pieces [] rest else pieces (begun ++ [c]) rest

/-- `Path(text)`. -/
def ofText (text : String) : Path where
  root :=
    if startswith text "/" then
      if startswith text "//" && !startswith text "///" then "//" else "/"
    else ""
  parts := ((pieces [] text.toList).filter fun p => p ≠ [] && p ≠ ['.']).map String.ofList

/-- `str(path)`. -/
def toText (path : Path) : String :=
  if path.root = "" ∧ path.parts = [] then "."
  else path.root ++ String.intercalate "/" path.parts

/-- `path.is_absolute()`. -/
def isAbsolute (path : Path) : Bool := path.root ≠ ""

/-- `path / name` for one part. -/
def child (path : Path) (name : String) : Path := { path with parts := path.parts ++ [name] }

end Path

end ModelBroker.Python
