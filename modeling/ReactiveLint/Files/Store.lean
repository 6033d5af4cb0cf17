import ReactiveLint.Files.Path

/-!
# File stores

A store holds the texts of files by path.  The directories of a store are those
that lead to its files.
-/

namespace ReactiveLint

inductive ReadError
  | notFound
  | notDirectory
  | isDirectory
deriving DecidableEq, Repr

def ReadError.message : ReadError → String
  | notFound => "No such file or directory (os error 2)"
  | notDirectory => "Not a directory (os error 20)"
  | isDirectory => "Is a directory (os error 21)"

/-- Files by the names on their way from the working directory. -/
structure FileStore where
  files : List (List String × String) := []
deriving Repr, Inhabited

namespace FileStore

def textAt? (store : FileStore) (place : List String) : Option String :=
  store.files.lookup place

def isDirectory (store : FileStore) (place : List String) : Bool :=
  place.isEmpty || store.files.any fun file => place.isPrefixOf file.1 && file.1 != place

/-- The place that a path leads to from a directory.  Every part but the last must
lead to a directory. -/
def walk (store : FileStore) (place : List String) : List PathPart → Except ReadError (List String)
  | [] => .ok place
  | part :: rest =>
      if !store.isDirectory place then .error .notDirectory
      else
        match part with
        | .root => .error .notFound
        | .here => store.walk place rest
        | .up => if place.isEmpty then .error .notFound else store.walk place.dropLast rest
        | .name text =>
            let next := place ++ [text]
            if (store.textAt? next).isSome || store.isDirectory next then store.walk next rest
            else .error .notFound

/-- The place of a file or directory.  A path that ends with a separator must lead
to a directory. -/
def locate (store : FileStore) (path : String) : Except ReadError (List String) :=
  if path.isEmpty then .error .notFound
  else
    match store.walk [] (Path.parts path) with
    | .error e => .error e
    | .ok place =>
        if path.toList.getLast? = some '/' && !store.isDirectory place then .error .notDirectory
        else .ok place

def read (store : FileStore) (path : String) : Except ReadError String :=
  match store.locate path with
  | .error e => .error e
  | .ok place =>
      match store.textAt? place with
      | some text => .ok text
      | none => .error .isDirectory

/-- Replaces the text of a file, or adds the file. -/
def putAt (place : List String) (text : String) :
    List (List String × String) → List (List String × String)
  | [] => [(place, text)]
  | (other, old) :: rest =>
      if other = place then (place, text) :: rest
      else (other, old) :: putAt place text rest

/-- Writes to a file that a read has found. -/
def write (store : FileStore) (path text : String) : FileStore :=
  match store.locate path with
  | .ok place => ⟨putAt place text store.files⟩
  | .error _ => store

/-- A store with files at plain relative paths. -/
def ofList (files : List (String × String)) : FileStore :=
  ⟨files.map fun (path, text) =>
    ((Path.parts path).filterMap fun
      | .name text => some text
      | _ => none, text)⟩

end FileStore

end ReactiveLint
