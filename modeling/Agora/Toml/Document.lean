import Agora.Toml.Plain

namespace Agora.Toml

def deepest : Nat := 80

mutual

def value (fuel depth : Nat) : Scan Value := fun s =>
  match fuel with
  | 0 => none
  | fuel + 1 =>
      match s with
      | '[' :: r =>
          if depth = 0 then none
          else (items fuel (depth - 1) r).map fun (vs, r) => (.arr vs, r)
      | '\x7b' :: r =>
          if depth = 0 then none
          else (pairs fuel (depth - 1) .inline [] r).map fun (es, r) => (.table .inline es, r)
      | '\x22' :: _ | '\x27' :: _ => (string s).map fun (t, r) => (.str t, r)
      | s => plain s

def items (fuel depth : Nat) : Scan (List Value) := fun s =>
  match fuel with
  | 0 => none
  | fuel + 1 =>
      match skipLines s.length s with
      | ']' :: r => some ([], r)
      | s => do
          let (v, s) ← value fuel depth s
          match skipLines s.length s with
          | ']' :: r => return ([v], r)
          | ',' :: r => do
              let (vs, r) ← items fuel depth r
              return (v :: vs, r)
          | _ => none

def pairs (fuel depth : Nat) (origin : Origin) (entries : Entries) : Scan Entries := fun s =>
  match fuel with
  | 0 => none
  | fuel + 1 =>
      match skipLines s.length s with
      | '\x7d' :: r => some (entries, r)
      | s => do
          let ((path, key), s) ← dottedKey s.length s
          let (_, s) ← expect '=' (skipSpace s)
          let (v, s) ← value fuel depth (skipSpace s)
          let (origin, entries) ← addDotted path key v origin entries
          match skipLines s.length s with
          | '\x7d' :: r => return (entries, r)
          | ',' :: r => pairs fuel depth origin entries r
          | _ => none

end

structure Document where
  entries : Entries := []
  header : List String := []
  deriving Repr

namespace Document

def change (doc : Document) (path : List String) (f : Change) : Option Document :=
  (underHeaders f path .header doc.entries).map fun (_, entries) => { doc with entries }

def readHeader (doc : Document) (s : List Char) : Option (Document × List Char) := do
  match s with
  | '[' :: r => do
      let ((path, key), r) ← dottedKey r.length r
      let (_, r) ← expect ']' r
      let (_, r) ← expect ']' r
      let doc ← doc.change path (openNextTable key)
      return ({ doc with header := path ++ [key] }, r)
  | r => do
      let ((path, key), r) ← dottedKey r.length r
      let (_, r) ← expect ']' r
      let doc ← doc.change path (openTable key)
      return ({ doc with header := path ++ [key] }, r)

def readPair (doc : Document) (s : List Char) : Option (Document × List Char) := do
  let ((path, key), s) ← dottedKey s.length s
  let (_, s) ← expect '=' (skipSpace s)
  let (v, s) ← value (2 * s.length + 2) deepest (skipSpace s)
  let doc ← doc.change doc.header (addDotted path key v)
  return (doc, s)

def readLines (fuel : Nat) (doc : Document) (s : List Char) : Option Document :=
  match fuel with
  | 0 => none
  | fuel + 1 =>
      match skipSpace s with
      | [] => some doc
      | c :: r =>
          match newline? (skipComment (c :: r)) with
          | some rest => readLines fuel doc rest
          | none =>
              if c = '#' then (if (skipComment (c :: r)).isEmpty then some doc else none)
              else do
                let (doc, rest) ← if c = '[' then doc.readHeader r else doc.readPair (c :: r)
                let rest ← lineEnd? rest
                readLines fuel doc rest

end Document

def dropByteOrderMark : List Char → List Char
  | '\ufeff' :: s => s
  | s => s

def read? (s : String) : Option Entries :=
  let cs := dropByteOrderMark s.toList
  (Document.readLines (cs.length + 1) {} cs).map (·.entries)

end Agora.Toml
