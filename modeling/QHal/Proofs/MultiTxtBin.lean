/-
Module: QHal.Proofs.MultiTxtBin
Purpose: The conversion of a directory in place keeps its texts if there is just one of them.
  With more, it removes them all and stops at the first that has no new text.
Trusted boundary: none
Main exports: Listing, Convertible, KeepsTexts, multiTxtBin_single, multiTxtBin_many,
  multiTxtBin_keeps_iff
-/
import Mathlib.Tactic.ByContra
import Mathlib.Tactic.Common
import QHal.Bdf.MultiTxtBin

namespace QHal.Bdf

open Numerals

/-- Some order of the files of a directory. -/
structure Listing (listing : List Text) (folder : Folder) : Prop where
  distinct : listing.Nodup
  complete : ∀ name, name ∈ listing ↔ (folder name).isSome

/-- Every text of the directory can be converted, and back. -/
def Convertible (listing : List Text) (folder : Folder) : Prop :=
  ∀ name ∈ textsOf listing, ∃ lines bytes back, folder name = some (.text lines) ∧
    (txt2bin lines freshGlobals).2 = some bytes ∧ bin2txt bytes lines = some back

/-- The tool ends with every text there, and a binary for each. -/
def KeepsTexts (directory : Text) (listing : List Text) (folder : Folder) : Prop :=
  ∃ after, bdfMultiTxtBin directory listing folder = .finished after ∧
    ∀ name ∈ textsOf listing, (∃ lines, after name = some (.text lines)) ∧
      ∃ bytes, after (binName name) = some (.binary bytes)

/-! ## Words in names -/

def wordNew : Text := ['n', 'e', 'w']

theorem contains_iff (word text : Text) : contains word text = true ↔ word <:+: text := by
  rw [contains, List.any_eq_true, List.infix_iff_prefix_suffix]
  constructor
  · rintro ⟨tail, member, isPrefix⟩
    exact ⟨tail, List.isPrefixOf_iff_prefix.mp isPrefix, (List.mem_tails _ _).mp member⟩
  · rintro ⟨tail, isPrefix, suffix⟩
    exact ⟨tail, (List.mem_tails _ _).mpr suffix, List.isPrefixOf_iff_prefix.mpr isPrefix⟩

/-- A character that is not in a word puts no occurrence of it into a text. -/
theorem infix_of_set {word text : Text} {position : Nat} {c : Char} (other : c ∉ word)
    (found : word <:+: text.set position c) : word <:+: text := by
  obtain ⟨start, room, here⟩ := List.infix_iff_getElem?.mp found
  refine List.infix_iff_getElem?.mpr ⟨start, by simpa using room, fun i inside => ?_⟩
  have same := here i inside
  rw [List.getElem?_set] at same
  split at same
  · split at same
    · exact absurd (Option.some.inj same ▸ List.getElem_mem inside) other
    · cases same
  · exact same

/-- The new extension of a binary has no end of the word. -/
theorem infix_of_append_bin {text : Text} (found : wordNew <:+: text ++ ['.', 'b', 'i', 'n']) :
    wordNew <:+: text := by
  obtain ⟨start, room, here⟩ := List.infix_iff_getElem?.mp found
  have last := here 2 (by decide)
  have inside : start + 2 < text.length := by
    by_contra behind
    rw [List.getElem?_append_right (by omega)] at last
    have member : 'w' ∈ ['.', 'b', 'i', 'n'] := List.mem_of_getElem? last
    exact absurd member (by decide)
  refine List.infix_iff_getElem?.mpr ⟨start, by
    have size : wordNew.length = 3 := rfl
    omega, fun i below => ?_⟩
  have size : wordNew.length = 3 := rfl
  have same := here i below
  rwa [List.getElem?_append_left (by omega)] at same

theorem basename_suffix (name : Text) : basename name <:+ name := by
  unfold basename
  rw [← List.reverse_prefix, List.reverse_reverse]
  exact List.takeWhile_prefix _

/-- The name of a binary has the word only if that of the text has it. -/
theorem infix_of_binName {name : Text} (found : wordNew <:+: binName name) :
    wordNew <:+: name := by
  have inside : ∀ {text : Text}, wordNew <:+: withoutExtension text → wordNew <:+: text :=
    fun found => found.trans (List.take_prefix _ _).isInfix
  have base : wordNew <:+: basename name → wordNew <:+: name := fun found =>
    found.trans (basename_suffix name).isInfix
  unfold binName at found
  dsimp only at found
  split at found
  · split at found
    · exact base (inside (infix_of_set (by decide) found))
    · exact base (inside (infix_of_append_bin found))
  · exact base (inside (infix_of_append_bin found))

theorem newName_holds (name : Text) : wordNew <:+: newName name :=
  ⟨withoutExtension name ++ ['_'], txtExtension, by simp [newName, wordNew]⟩

theorem newName_isTxt (name : Text) : isTxt (newName name) = true := by
  rw [isTxt, List.isSuffixOf_iff_suffix]
  exact List.suffix_append _ _

/-- A text has its name again from what is in front of the extension. -/
theorem eq_withoutExtension {name : Text} (txt : isTxt name = true) :
    name = withoutExtension name ++ txtExtension := by
  rw [isTxt, List.isSuffixOf_iff_suffix] at txt
  obtain ⟨front, rfl⟩ := txt
  unfold withoutExtension
  rw [List.length_append, show txtExtension.length = 4 from rfl, Nat.add_sub_cancel,
    List.take_left]

theorem newName_inj {first second : Text} (one : isTxt first = true) (two : isTxt second = true)
    (same : newName first = newName second) : first = second := by
  have front := List.append_cancel_right (List.append_cancel_right same)
  rw [eq_withoutExtension one, front, ← eq_withoutExtension two]

theorem infix_joinPath (directory : Text) {name word : Text} (found : word <:+: name) :
    word <:+: joinPath directory name := by
  unfold joinPath
  split
  · exact found.trans (List.suffix_append _ _).isInfix
  · exact found.trans ((List.suffix_cons _ _).trans (List.suffix_append _ _)).isInfix

theorem binName_ne {name : Text} (txt : isTxt name = true) : binName name ≠ name := by
  have whole := eq_withoutExtension txt
  have long : 4 ≤ name.length := by
    rw [whole, List.length_append]
    exact Nat.le_add_left 4 _
  have short : (withoutExtension (basename name)).length ≤ name.length - 4 := by
    have base := (basename_suffix name).length_le
    rw [withoutExtension, List.length_take]
    omega
  have bin : withoutExtension (basename name) ++ ['.', 'b', 'i', 'n'] ≠ name := by
    intro same
    rw [whole] at same
    exact absurd (List.append_inj' same rfl).2 (by decide)
  unfold binName
  dsimp only
  split
  · split
    · intro same
      have size := congrArg List.length same
      rw [List.length_set] at size
      omega
    · exact bin
  · exact bin

/-! ## The loops -/

/-- Files that are there are removed. -/
theorem removeAll_eq {names : List Text} {folder : Folder} (distinct : names.Nodup)
    (present : ∀ name ∈ names, (folder name).isSome) :
    removeAll names folder = (fun name => if name ∈ names then none else folder name, true) := by
  induction names generalizing folder with
  | nil => simp [removeAll]
  | cons first names ih =>
      obtain ⟨fresh, distinct⟩ := List.nodup_cons.mp distinct
      obtain ⟨content, here⟩ := Option.isSome_iff_exists.mp (present first List.mem_cons_self)
      rw [removeAll, here]
      dsimp only
      rw [ih distinct fun name member => ?_]
      · congr 1
        funext name
        by_cases same : name = first
        · subst same
          simp [fresh]
        · simp [same]
      · rw [Function.update_of_ne (by rintro rfl; exact fresh member)]
        exact present name (List.mem_cons_of_mem _ member)

section Runs

variable {directory : Text} {listing : List Text} {folder : Folder}

/-- A text with the word in its name is not in a directory that is converted. -/
theorem absent_of_new (all : Listing listing folder)
    (plain : ∀ name ∈ textsOf listing, ¬ wordNew <:+: joinPath directory name) {name : Text}
    (txt : isTxt name = true) (named : wordNew <:+: name) : folder name = none := by
  cases here : folder name with
  | none => rfl
  | some content =>
      have member := (all.complete name).mpr (by rw [here]; rfl)
      exact absurd (infix_joinPath directory named) (plain name (List.mem_filter.mpr ⟨member, txt⟩))

/-- The files behind the conversion of the first text. -/
def convertedFolder (folder : Folder) (name : Text) (bytes : List UInt8) (back : List Text) :
    Folder :=
  Function.update (Function.update folder (binName name) (some (.binary bytes))) (newName name)
    (some (.text back))

/-- What happens behind the check of the names. -/
theorem multiTxtBin_eq (plain : ∀ name ∈ textsOf listing, ¬ wordNew <:+: joinPath directory name)
    {first : Text} {names : List Text} (texts : textsOf listing = first :: names)
    {lines : List Text} {bytes : List UInt8} {back : List Text}
    (here : folder first = some (.text lines))
    (forth : (txt2bin lines freshGlobals).2 = some bytes)
    (again : bin2txt bytes lines = some back) :
    bdfMultiTxtBin directory listing folder =
      match removeAll (first :: names) (convertedFolder folder first bytes back) with
      | (folder, false) => .exited folder
      | (folder, true) =>
          match renameAll (first :: names) folder with
          | (folder, false) => .raised folder
          | (folder, true) => .finished folder := by
  have txt : isTxt first = true := by
    have member : first ∈ textsOf listing := by
      rw [texts]
      exact List.mem_cons_self
    exact (List.mem_filter.mp member).2
  have checked : ¬ ((textsOf listing).any fun name =>
      contains ['n', 'e', 'w'] (joinPath directory name)) = true := by
    rw [List.any_eq_true]
    rintro ⟨name, member, found⟩
    exact plain name member ((contains_iff _ _).mp found)
  have converted : (convertText folder first (binName first)).bind
      (fun folder => convertBinary folder (binName first) first) =
        some (convertedFolder folder first bytes back) := by
    simp only [convertText, here, forth, Option.map_some, Option.bind_some, convertBinary,
      Function.update_self, Function.update_of_ne (binName_ne txt).symm, again, convertedFolder]
  rw [bdfMultiTxtBin, if_neg checked, texts]
  rcases removal : removeAll (first :: names) (convertedFolder folder first bytes back) with
    ⟨removed, done⟩
  rcases renaming' : renameAll (first :: names) removed with ⟨renamed, allRenamed⟩
  cases done <;> cases allRenamed <;>
    simp only [Option.bind_eq_bind, converted, removal, renaming']

/-- The texts are there when they are removed. -/
theorem converted_present (all : Listing listing folder) {first : Text} (bytes : List UInt8)
    (back : List Text) :
    ∀ name ∈ textsOf listing, (convertedFolder folder first bytes back name).isSome := by
  intro name member
  have here := (all.complete name).mp (List.mem_filter.mp member).1
  by_cases new : name = newName first
  · rw [new, convertedFolder, Function.update_self]
    rfl
  · by_cases bin : name = binName first
    · rw [convertedFolder, Function.update_of_ne new, bin, Function.update_self]
      rfl
    · rwa [convertedFolder, Function.update_of_ne new, Function.update_of_ne bin]

/-- The files when the texts are removed and the first has its new text. -/
def givenBack (folder : Folder) (first : Text) (names : List Text) (bytes : List UInt8)
    (back : List Text) : Folder :=
  Function.update
    (Function.update
      (fun name =>
        if name ∈ first :: names then none else convertedFolder folder first bytes back name)
      (newName first) none)
    first (some (.text back))

/-- The removal succeeds, and so does the first of the renames. -/
theorem multiTxtBin_renames (all : Listing listing folder)
    (plain : ∀ name ∈ textsOf listing, ¬ wordNew <:+: joinPath directory name)
    {first : Text} {names : List Text} (texts : textsOf listing = first :: names)
    {lines : List Text} {bytes : List UInt8} {back : List Text}
    (here : folder first = some (.text lines))
    (forth : (txt2bin lines freshGlobals).2 = some bytes)
    (again : bin2txt bytes lines = some back) :
    bdfMultiTxtBin directory listing folder =
      match renameAll names (givenBack folder first names bytes back) with
      | (folder, false) => .raised folder
      | (folder, true) => .finished folder := by
  have distinct : (first :: names).Nodup := texts ▸ all.distinct.filter _
  have present := @converted_present listing folder all first bytes back
  have unlisted : newName first ∉ first :: names := fun member =>
    plain (newName first) (texts ▸ member) (infix_joinPath directory (newName_holds first))
  rw [texts] at present
  rw [multiTxtBin_eq plain texts here forth again, removeAll_eq distinct present]
  dsimp only
  rw [renameAll, if_neg unlisted, convertedFolder, Function.update_self]
  rfl

/-- One text: it is replaced by its new text, and its binary is there. -/
theorem multiTxtBin_single (all : Listing listing folder) (convertible : Convertible listing folder)
    (plain : ∀ name ∈ textsOf listing, ¬ wordNew <:+: joinPath directory name)
    {name : Text} (texts : textsOf listing = [name]) : KeepsTexts directory listing folder := by
  have member : name ∈ textsOf listing := by
    rw [texts]
    exact List.mem_cons_self
  have txt := (List.mem_filter.mp member).2
  have unnamed : ¬ wordNew <:+: name :=
    fun found => plain name member (infix_joinPath directory found)
  obtain ⟨lines, bytes, back, here, forth, again⟩ := convertible name member
  have apart : binName name ≠ newName name := fun same =>
    unnamed (infix_of_binName (same ▸ newName_holds name))
  refine ⟨_, multiTxtBin_renames all plain texts here forth again, fun text inside => ?_⟩
  rw [texts, List.mem_singleton] at inside
  subst inside
  constructor
  · exact ⟨back, Function.update_self ..⟩
  · refine ⟨bytes, ?_⟩
    rw [givenBack, Function.update_of_ne (binName_ne txt), Function.update_of_ne apart,
      if_neg (by rw [List.mem_singleton]; exact binName_ne txt), convertedFolder,
      Function.update_of_ne apart, Function.update_self]

/-- More texts: the tool stops when it has removed all of them and has given back the first. -/
theorem multiTxtBin_many (all : Listing listing folder) (convertible : Convertible listing folder)
    (plain : ∀ name ∈ textsOf listing, ¬ wordNew <:+: joinPath directory name)
    {first second : Text} {names : List Text} (texts : textsOf listing = first :: second :: names) :
    ∃ after, bdfMultiTxtBin directory listing folder = .raised after ∧
      ∀ name ∈ textsOf listing, name ≠ first → after name = none := by
  have member : first ∈ textsOf listing ∧ second ∈ textsOf listing := by
    rw [texts]
    exact ⟨List.mem_cons_self, List.mem_cons_of_mem _ List.mem_cons_self⟩
  have distinct : first ≠ second := by
    have distinct : (first :: second :: names).Nodup := texts ▸ all.distinct.filter _
    rintro rfl
    exact (List.nodup_cons.mp distinct).1 List.mem_cons_self
  have unnamed : ∀ name ∈ textsOf listing, ¬ wordNew <:+: name := fun name inside found =>
    plain name inside (infix_joinPath directory found)
  obtain ⟨lines, bytes, back, here, forth, again⟩ := convertible first member.1
  -- The new text of the second was never written, nor was there a file of its name.
  have missing : givenBack folder first (second :: names) bytes back (newName second) = none := by
    have old := absent_of_new all plain (newName_isTxt second) (newName_holds second)
    have fresh : newName second ≠ newName first := fun same =>
      distinct (newName_inj (List.mem_filter.mp member.2).2
        (List.mem_filter.mp member.1).2 same).symm
    have bin : newName second ≠ binName first := fun same =>
      unnamed first member.1 (infix_of_binName (same ▸ newName_holds second))
    have text : newName second ≠ first := fun same =>
      unnamed first member.1 (same ▸ newName_holds second)
    rw [givenBack, Function.update_of_ne text, Function.update_of_ne fresh, convertedFolder,
      Function.update_of_ne fresh, Function.update_of_ne bin, old, ite_self]
  refine ⟨givenBack folder first (second :: names) bytes back, ?_, fun name inside other => ?_⟩
  · rw [multiTxtBin_renames all plain texts here forth again, renameAll, missing]
  · have listed := inside
    rw [texts] at listed
    have fresh : name ≠ newName first := fun same =>
      unnamed name inside (same ▸ newName_holds first)
    rw [givenBack, Function.update_of_ne other, Function.update_of_ne fresh, if_pos listed]

/-- For every order of the files, a directory of texts that can all be converted keeps them,
each with its binary, exactly if it has a single text and its path does not have the word
`new` in it. -/
theorem multiTxtBin_keeps_iff (all : Listing listing folder)
    (convertible : Convertible listing folder) (nonempty : textsOf listing ≠ []) :
    KeepsTexts directory listing folder ↔
      (textsOf listing).length = 1 ∧
        ∀ name ∈ textsOf listing, ¬ wordNew <:+: joinPath directory name := by
  constructor
  · rintro ⟨after, finished, -⟩
    have plain : ∀ name ∈ textsOf listing, ¬ wordNew <:+: joinPath directory name := by
      intro name member found
      have named : (textsOf listing).any (fun name =>
          contains ['n', 'e', 'w'] (joinPath directory name)) = true :=
        List.any_eq_true.mpr ⟨name, member, (contains_iff _ _).mpr found⟩
      rw [bdfMultiTxtBin, if_pos named] at finished
      cases finished
    refine ⟨?_, plain⟩
    rcases texts : textsOf listing with _ | ⟨first, _ | ⟨second, names⟩⟩
    · exact absurd texts nonempty
    · rfl
    · obtain ⟨other, raised, -⟩ := multiTxtBin_many all convertible plain texts
      rw [raised] at finished
      cases finished
  · rintro ⟨single, plain⟩
    obtain ⟨name, texts⟩ := List.length_eq_one_iff.mp single
    exact multiTxtBin_single all convertible plain texts

end Runs

/-- A text with one field. -/
def oneField : List Text := ["uint8\tx\t 1 \n".toList]

/-- A directory of equal texts with these names. -/
def equalTexts (names : List Text) : Folder := fun name =>
  if name ∈ names then some (.text oneField) else none

theorem equalTexts_listing {names : List Text} (distinct : names.Nodup) :
    Listing names (equalTexts names) where
  distinct := distinct
  complete name := by
    unfold equalTexts
    split
    · next member => exact iff_of_true member rfl
    · next absent => exact iff_of_false absent nofun

theorem equalTexts_convertible (names : List Text) : Convertible names (equalTexts names) := by
  intro name member
  refine ⟨oneField, [1], oneField, ?_, by decide, by decide⟩
  exact if_pos (List.mem_filter.mp member).1

/-- A directory with one text. -/
theorem multiTxtBin_keeps_one :
    KeepsTexts "bdf".toList ["a_b.txt".toList] (equalTexts ["a_b.txt".toList]) := by
  refine (multiTxtBin_keeps_iff (equalTexts_listing (by decide))
    (equalTexts_convertible _) (by decide)).mpr ⟨by decide, ?_⟩
  intro name member found
  obtain rfl : name = "a_b.txt".toList := List.mem_singleton.mp (List.mem_filter.mp member).1
  exact absurd ((contains_iff _ _).mpr found) (by decide)

/-- A directory with two texts: the second is lost. -/
theorem multiTxtBin_loses_second :
    ¬ KeepsTexts "bdf".toList ["a.txt".toList, "b.txt".toList]
        (equalTexts ["a.txt".toList, "b.txt".toList]) ∧
      ∃ after, bdfMultiTxtBin "bdf".toList ["a.txt".toList, "b.txt".toList]
          (equalTexts ["a.txt".toList, "b.txt".toList]) = .raised after ∧
        after "b.txt".toList = none := by
  have plain : ∀ name ∈ textsOf ["a.txt".toList, "b.txt".toList],
      ¬ wordNew <:+: joinPath "bdf".toList name := by
    intro name member found
    have listed := (List.mem_filter.mp member).1
    rw [List.mem_cons, List.mem_singleton] at listed
    rcases listed with rfl | rfl <;>
      exact absurd ((contains_iff _ _).mpr found) (by decide)
  obtain ⟨after, raised, lost⟩ := multiTxtBin_many (equalTexts_listing (by decide))
    (equalTexts_convertible _) plain
    (show textsOf ["a.txt".toList, "b.txt".toList] = ["a.txt".toList, "b.txt".toList] by decide)
  refine ⟨?_, after, raised, lost _ (by decide) (by decide)⟩
  rintro ⟨other, finished, -⟩
  rw [raised] at finished
  cases finished

end QHal.Bdf
