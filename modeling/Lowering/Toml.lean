/-!
# TOML values

Values and tables of a configuration text. A table remembers how it came about, because that decides
what may be added to it: a table of a header takes the lines below the header, a table that a dotted
key made takes other dotted keys, and a table that was only named on the way to another one may still
get a header of its own. A table written as a value is complete.
-/

namespace Lowering

/-- How a table came about. -/
inductive TableOrigin where
  /-- on the way to the table of a header -/
  | implied
  /-- by a dotted key -/
  | dotted
  /-- by a header of its own, or as the whole text -/
  | header
  /-- as a value -/
  | inline
deriving DecidableEq, Repr

/-- A TOML value. -/
inductive Toml where
  | str (s : String)
  | int (n : Int)
  | float
  | dateTime
  | bool (b : Bool)
  | arr (items : List Toml)
  | table (origin : TableOrigin) (entries : List (String × Toml))
  /-- tables that headers in double brackets made, the latest last -/
  | tables (items : List Toml)

instance : Inhabited Toml := ⟨.table .header []⟩

namespace Toml

/-- Puts a value at a key, in place of the one that was there. -/
def setEntry (k : String) (v : Toml) : List (String × Toml) → List (String × Toml)
  | [] => [(k, v)]
  | (k', v') :: rest => if k = k' then (k, v) :: rest else (k', v') :: setEntry k v rest

/-- Changes the table at the end of a path. Tables that are missing on the way are made, with the
given origin; in an array of tables the way goes through the last one. A dotted key must not go into
a table that has a header. -/
def modifyAt (origin : TableOrigin) (path : List String) (f : Toml → Option Toml) (t : Toml) :
    Option Toml :=
  match path with
  | [] => f t
  | k :: ks =>
    match t with
    | .table o entries =>
      match entries.lookup k with
      | none =>
        (modifyAt origin ks f (.table origin [])).map fun c => .table o (entries ++ [(k, c)])
      | some (.table .inline _) => none
      | some (.table o' es) =>
        if origin = .dotted ∧ o' = .header then none
        else (modifyAt origin ks f (.table o' es)).map fun c => .table o (setEntry k c entries)
      | some (.tables items) =>
        match items.getLast? with
        | some last =>
          (modifyAt origin ks f last).map fun c =>
            .table o (setEntry k (.tables (items.dropLast ++ [c])) entries)
        | none => none
      | some _ => none
    | _ => none

/-- Adds an entry to a table that has none with this key. -/
def addEntry (k : String) (v : Toml) : Toml → Option Toml
  | .table o entries =>
    if (entries.lookup k).isSome then none else some (.table o (entries ++ [(k, v)]))
  | _ => none

/-- Adds a value at a dotted key. The table that gets it must be the one that the key starts from,
or a table that dotted keys made. -/
def addDotted (path : List String) (k : String) (v : Toml) (t : Toml) : Option Toml :=
  if path.isEmpty then addEntry k v t
  else
    modifyAt .dotted path (fun c =>
      match c with
      | .table .dotted _ => addEntry k v c
      | _ => none) t

/-- Makes the table of a header. -/
def openTable (path : List String) (k : String) (root : Toml) : Option Toml :=
  modifyAt .implied path (fun t =>
    match t with
    | .table o entries =>
      match entries.lookup k with
      | none => some (.table o (entries ++ [(k, .table .header [])]))
      | some (.table .implied es) => some (.table o (setEntry k (.table .header es) entries))
      | some _ => none
    | _ => none) root

/-- Makes another table of a header in double brackets. -/
def openTables (path : List String) (k : String) (root : Toml) : Option Toml :=
  modifyAt .implied path (fun t =>
    match t with
    | .table o entries =>
      match entries.lookup k with
      | none => some (.table o (entries ++ [(k, .tables [.table .header []])]))
      | some (.tables items) =>
        some (.table o (setEntry k (.tables (items ++ [.table .header []])) entries))
      | some _ => none
    | _ => none) root

end Toml

end Lowering
