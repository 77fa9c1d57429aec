/-
Module: QHal.Bdf.MultiTxtBin
Purpose: The conversion of the board data texts of a directory in place,
  tools/qbdf/bdf_multi_txt_bin.py with the output directory equal to the input directory.
Trusted boundary: the directory has no directories in it and its files can be read, written
  and removed; what a conversion that fails leaves, and what is printed, is left out
Main exports: Folder, contains, newName, binName, Outcome, removeAll, renameAll,
  bdfMultiTxtBin
-/
import Mathlib.Data.List.Infix
import Mathlib.Logic.Function.Basic
import QHal.Bdf.Bin2Txt

namespace QHal.Bdf

open Numerals

/-- A file: the lines of a text, or bytes. -/
inductive Content where
  | text (lines : List Text)
  | binary (bytes : List UInt8)
deriving Repr, DecidableEq

/-- The files of the directory by their names. -/
abbrev Folder := Text → Option Content

/-! ## Names -/

/-- `word in text`. -/
def contains (word text : Text) : Bool := text.tails.any fun tail => word.isPrefixOf tail

def txtExtension : Text := ['.', 't', 'x', 't']

/-- `i.endswith('.txt')`. -/
def isTxt (name : Text) : Bool := txtExtension.isSuffixOf name

/-- A name without its last four characters. -/
def withoutExtension (name : Text) : Text := name.take (name.length - 4)

/-- `os.path.join(root, f)`. -/
def joinPath (directory name : Text) : Text :=
  if directory = [] ∨ directory.getLast? = some '/' then directory ++ name
  else directory ++ '/' :: name

/-- The text that `bin2txt` writes beside the text of this name. -/
def newName (name : Text) : Text := withoutExtension name ++ ['_', 'n', 'e', 'w'] ++ txtExtension

/-- `os.path.basename` of a name with its backslashes replaced. -/
def basename (name : Text) : Text :=
  (name.reverse.takeWhile fun c => c != '/' && c != '\\').reverse

/-- `text.rfind(c)`. -/
def rfind (c : Char) (text : Text) : Option Nat :=
  (text.reverse.findIdx? (· == c)).map fun i => text.length - 1 - i

/-- The second of `create_filenames`: the last underscore becomes a dot. -/
def binName (name : Text) : Text :=
  let filename := basename name
  if contains ['_'] filename then
    match rfind '_' (withoutExtension filename) with
    | some position => (withoutExtension filename).set position '.'
    | none => withoutExtension filename ++ ['.', 'b', 'i', 'n']
  else withoutExtension filename ++ ['.', 'b', 'i', 'n']

/-! ## The directory -/

/-- How `main` ends. -/
inductive Outcome where
  | finished (folder : Folder)
  | exited (folder : Folder)
  | raised (folder : Folder)
  | conversionFailed

/-- `t2b.main` from a text to a binary of the directory. -/
def convertText (folder : Folder) (txtFile binFile : Text) : Option Folder :=
  match folder txtFile with
  | some (.text lines) =>
      (txt2bin lines freshGlobals).2.map fun bytes =>
        Function.update folder binFile (some (.binary bytes))
  | _ => none

/-- `b2t.main` from a binary, with the lines of a text as its template. -/
def convertBinary (folder : Folder) (binFile txtFile : Text) : Option Folder :=
  match folder binFile, folder txtFile with
  | some (.binary bytes), some (.text lines) =>
      (bin2txt bytes lines).map fun back =>
        Function.update folder (newName txtFile) (some (.text back))
  | _, _ => none

/-- The loop over `os.remove`. -/
def removeAll : List Text → Folder → Folder × Bool
  | [], folder => (folder, true)
  | name :: names, folder =>
      match folder name with
      | none => (folder, false)
      | some _ => removeAll names (Function.update folder name none)

/-- The loop over `os.rename`. -/
def renameAll : List Text → Folder → Folder × Bool
  | [], folder => (folder, true)
  | name :: names, folder =>
      match folder (newName name) with
      | none => (folder, false)
      | some content =>
          renameAll names
            (Function.update (Function.update folder (newName name) none) name (some content))

/-- The texts of a listing, `files_diff`. -/
def textsOf (listing : List Text) : List Text := listing.filter isTxt

/-- `main` for a directory, whose files come in the order of the `listing`.  The loop over the
texts ends in its first round. -/
def bdfMultiTxtBin (directory : Text) (listing : List Text) (folder : Folder) : Outcome :=
  if (textsOf listing).any fun name => contains ['n', 'e', 'w'] (joinPath directory name) then
    .exited folder
  else
    match textsOf listing with
    | [] => .exited folder
    | name :: names =>
        let converted := do
          let folder ← convertText folder name (binName name)
          convertBinary folder (binName name) name
        match converted with
        | none => .conversionFailed
        | some folder =>
            match removeAll (name :: names) folder with
            | (folder, false) => .exited folder
            | (folder, true) =>
                match renameAll (name :: names) folder with
                | (folder, false) => .raised folder
                | (folder, true) => .finished folder

end QHal.Bdf
