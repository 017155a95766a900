import EpsDapp.Text.Alphabet
import Mathlib.Data.List.Basic

/-!
# Markup

Elements that nest, read one character at a time, and text that is escaped to stand between
them. The reader takes an escaped text for text, whatever it says: no tag comes out of it,
and it is read back as it was, but for the ends of its lines.

The reader checks characters, references, quotes and nesting, and reads each end of a line as
a line feed; comments, declarations and numeric references are not read.
-/

set_option autoImplicit false

namespace EpsDapp

namespace Markup

/-! ## Escaping -/

/-- `text.replace(/c/g, replacement)`, for a character and a plain replacement. -/
def replaceAll (c : Char) (replacement text : String) : String :=
  String.ofList (text.toList.flatMap fun d => if d = c then replacement.toList else [d])

/-- A character of a text, such that it means itself. -/
def escapeChar (c : Char) : List Char :=
  if c = '&' then ['&', 'a', 'm', 'p', ';']
  else if c = '<' then ['&', 'l', 't', ';']
  else if c = '>' then ['&', 'g', 't', ';']
  else if c = '"' then ['&', 'q', 'u', 'o', 't', ';']
  else [c]

def escape (text : String) : String := String.ofList (text.toList.flatMap escapeChar)

/-! ## Characters and lines -/

/-- A character that a document may hold. -/
def IsChar (c : Char) : Prop :=
  c = '\t' ∨ c = '\n' ∨ c = '\r' ∨ (32 ≤ c.toNat ∧ c.toNat ≠ 65534 ∧ c.toNat ≠ 65535)

instance : DecidablePred IsChar := fun c => by unfold IsChar; infer_instance

/-- Each end of a line is a line feed. -/
def normalizeLines : List Char → List Char
  | [] => []
  | c :: cs =>
      if c = '\r' then
        -- A return before a line feed is part of the same end.
        if cs.head? = some '\n' then normalizeLines cs else '\n' :: normalizeLines cs
      else c :: normalizeLines cs

def readLines (text : String) : String := String.ofList (normalizeLines text.toList)

theorem normalizeLines_append_of_not_mem {cs ds : List Char} (h : '\r' ∉ cs) :
    normalizeLines (cs ++ ds) = cs ++ normalizeLines ds := by
  induction cs with
  | nil => rfl
  | cons c cs ih =>
      rw [List.mem_cons, not_or] at h
      rw [List.cons_append, normalizeLines, if_neg (Ne.symm h.1), ih h.2, List.cons_append]

theorem normalizeLines_of_not_mem {cs : List Char} (h : '\r' ∉ cs) : normalizeLines cs = cs := by
  have happend : normalizeLines (cs ++ []) = cs ++ normalizeLines [] :=
    normalizeLines_append_of_not_mem h
  rwa [List.append_nil, normalizeLines, List.append_nil] at happend

/-- The ends of the lines of two parts are those of each, unless a line feed is between them. -/
theorem normalizeLines_append {cs ds : List Char} (h : ds.head? ≠ some '\n') :
    normalizeLines (cs ++ ds) = normalizeLines cs ++ normalizeLines ds := by
  induction cs with
  | nil => rfl
  | cons c cs ih =>
      have hhead : (cs ++ ds).head? = some '\n' ↔ cs.head? = some '\n' := by
        cases cs with
        | nil => exact iff_of_false h (by simp)
        | cons d cs => rfl
      rw [List.cons_append, normalizeLines, normalizeLines, ih]
      simp only [hhead]
      split_ifs <;> rfl

theorem readLines_of_not_mem {text : String} (h : '\r' ∉ text.toList) : readLines text = text := by
  rw [readLines, normalizeLines_of_not_mem h, String.ofList_toList]

theorem escapeChar_of_ne {c : Char} (h : c ∉ ['&', '<', '>', '"']) : escapeChar c = [c] := by
  simp only [List.mem_cons, List.not_mem_nil, or_false, not_or] at h
  simp [escapeChar, h]

/-- Escaping does not change the ends of lines. -/
theorem normalizeLines_escape (text : String) :
    normalizeLines (escape text).toList = (escape (readLines text)).toList := by
  simp only [escape, readLines, String.toList_ofList]
  induction text.toList with
  | nil => rfl
  | cons c cs ih =>
      have hhead : (cs.flatMap escapeChar).head? = some '\n' ↔ cs.head? = some '\n' := by
        cases cs with
        | nil => rfl
        | cons d cs =>
            rw [List.flatMap_cons]
            unfold escapeChar
            split_ifs with hamp hlt hgt hquot <;> simp_all
      by_cases hc : c = '\r'
      · subst hc
        have hself : escapeChar '\r' = ['\r'] := rfl
        rw [List.flatMap_cons, hself, List.singleton_append, normalizeLines, normalizeLines]
        simp only [hhead, if_true]
        split_ifs
        · exact ih
        · rw [ih]
          rfl
      · have hmem : '\r' ∉ escapeChar c := by
          unfold escapeChar
          split_ifs <;> simp [Ne.symm hc]
        rw [List.flatMap_cons, normalizeLines_append_of_not_mem hmem, ih, normalizeLines,
          if_neg hc, List.flatMap_cons]

theorem over_escape_iff (text : String) : Over IsChar (escape text) ↔ Over IsChar text := by
  have hchar : ∀ c, (∀ d ∈ escapeChar c, IsChar d) ↔ IsChar c := by
    intro c
    by_cases hc : c ∈ ['&', '<', '>', '"']
    · have hchars : ∀ c ∈ ['&', '<', '>', '"'], IsChar c := forall_mem_of_all (by decide)
      have hescapes : ∀ c ∈ ['&', '<', '>', '"'],
          ((escapeChar c).all fun d => decide (IsChar d)) = true := forall_mem_of_all (by decide)
      exact iff_of_true (forall_mem_of_all (hescapes c hc)) (hchars c hc)
    · rw [escapeChar_of_ne hc]
      simp
  simp only [Over, escape, String.toList_ofList, List.mem_flatMap]
  constructor
  · exact fun h c hc => (hchar c).1 fun d hd => h d ⟨c, hc, hd⟩
  · rintro h d ⟨c, hc, hd⟩
    exact (hchar c).2 (h c hc) d hd

/-! ## References -/

/-- The character that a reference names. -/
def entity : List Char → Option Char
  | ['a', 'm', 'p'] => some '&'
  | ['l', 't'] => some '<'
  | ['g', 't'] => some '>'
  | ['q', 'u', 'o', 't'] => some '"'
  | ['a', 'p', 'o', 's'] => some '\''
  | _ => none

/-! ## Reading -/

/-- A tag without its brackets, and the text that is before it. -/
structure Tag where
  before : String
  content : String
  deriving DecidableEq

/-- Where the reader is. -/
inductive Place
  | text
  | reference (name : List Char)
  | tag
  | quoted (mark : Char)
  deriving DecidableEq

/-- `seen` is what was read of the text or of the tag, the last character first. -/
structure Reader where
  place : Place := .text
  seen : List Char := []
  before : List Char := []
  opened : List (List Char) := []
  tags : List Tag := []

/-- The closing tag of an element. -/
def closing (name : List Char) : List Char := '<' :: '/' :: name ++ ['>']

/-- The elements that are open after a tag. -/
def nest (opened : List (List Char)) : List Char → Option (List (List Char))
  | '/' :: name =>
      match opened with
      | [] => none
      | last :: rest => if last = name then some rest else none
  | tag =>
      if tag.getLast? = some '/' then some opened
      else some (tag.takeWhile (· ≠ ' ') :: opened)

namespace Reader

def step (r : Reader) (c : Char) : Option Reader :=
  match r.place with
  | .text =>
      if c = '<' then some { r with place := .tag, before := r.seen, seen := [] }
      else if c = '&' then some { r with place := .reference [] }
      else some { r with seen := c :: r.seen }
  | .reference name =>
      if c = ';' then
        (entity name).map fun d => { r with place := .text, seen := d :: r.seen }
      else some { r with place := .reference (name ++ [c]) }
  | .tag =>
      if c = '>' then
        (nest r.opened r.seen.reverse).map fun opened =>
          { opened, tags := r.tags ++
              [⟨String.ofList r.before.reverse, String.ofList r.seen.reverse⟩] }
      else if c = '"' ∨ c = '\'' then
        some { r with place := .quoted c, seen := c :: r.seen }
      else some { r with seen := c :: r.seen }
  | .quoted mark =>
      some { r with place := if c = mark then .tag else .quoted mark, seen := c :: r.seen }

def run (r : Reader) (cs : List Char) : Option Reader := cs.foldlM step r

/-- The reader, when other tags were read before. -/
def after (tags : List Tag) (r : Reader) : Reader := { r with tags := tags ++ r.tags }

/-- Between two tags, with the elements open. -/
def Rests (opened : List (List Char)) (seen : List Char) (r : Reader) : Prop :=
  r.place = .text ∧ r.seen = seen.reverse ∧ r.before = [] ∧ r.opened = opened

instance (opened : List (List Char)) (seen : List Char) :
    DecidablePred (Rests opened seen) := fun _ => inferInstanceAs (Decidable (_ ∧ _))

/-- Read where some elements are open, the characters leave others open. -/
def Passes (opened opened' : List (List Char)) (seen cs : List Char) : Prop :=
  ∃ r, run { opened } cs = some r ∧ r.Rests opened' seen

/-- The tags that are read where some elements are open. -/
def tagsOf (opened : List (List Char)) (cs : List Char) : List Tag :=
  ((run { opened } cs).map tags).getD []

instance (opened opened' : List (List Char)) (seen cs : List Char) :
    Decidable (Passes opened opened' seen cs) :=
  decidable_of_iff ((run { opened } cs).any (fun r => decide (r.Rests opened' seen)) = true)
    (by simp [Passes, Option.any_eq_true])

end Reader

/-- The tags of a document, at whose end nothing is open. -/
def document (text : String) : Option (List Tag) :=
  if Over IsChar text then
    (Reader.run {} (normalizeLines text.toList)).bind fun r =>
      if r.Rests [] [] then some r.tags else none
  else none

/-! ## The steps of the reader -/

namespace Reader

theorem run_append (r : Reader) (cs ds : List Char) :
    r.run (cs ++ ds) = (r.run cs).bind (·.run ds) := List.foldlM_append

theorem run_cons (r : Reader) (c : Char) (cs : List Char) :
    r.run (c :: cs) = (r.step c).bind (·.run cs) := List.foldlM_cons

theorem step_after (tags : List Tag) (r : Reader) (c : Char) :
    (r.after tags).step c = (r.step c).map (after tags) := by
  obtain ⟨place, seen, before, opened, read⟩ := r
  cases place with
  | text => simp only [step, after]; split_ifs <;> rfl
  | reference name =>
      simp only [step, after]
      split_ifs
      · cases entity name <;> rfl
      · rfl
  | tag =>
      simp only [step, after]
      split_ifs
      · cases nest opened seen.reverse with
        | none => rfl
        | some opened => simp [after]
      · rfl
      · rfl
  | quoted mark => rfl

/-- What was read before does not matter. -/
theorem run_after (tags : List Tag) (r : Reader) (cs : List Char) :
    (r.after tags).run cs = (r.run cs).map (after tags) := by
  induction cs generalizing r with
  | nil => rfl
  | cons c cs ih =>
      rw [run_cons, run_cons, step_after]
      cases r.step c with
      | none => rfl
      | some next => exact ih next

/-- A part of a document is read in its place as it is by itself. -/
theorem Passes.run_eq {opened opened' : List (List Char)} {seen cs : List Char}
    (h : Passes opened opened' seen cs) (before : List Tag) :
    run { opened, tags := before } cs =
      some { opened := opened', seen := seen.reverse, tags := before ++ tagsOf opened cs } := by
  obtain ⟨⟨place, _, _, _, tags⟩, hrun, rfl, rfl, rfl, rfl⟩ := h
  have hafter := run_after before { opened } cs
  rw [hrun] at hafter
  simpa [tagsOf, hrun, after] using hafter

/-- An escaped character is read as itself. -/
theorem run_escapeChar {r : Reader} (hr : r.place = .text) (c : Char) :
    r.run (escapeChar c) = some { r with seen := c :: r.seen } := by
  obtain ⟨place, seen, before, opened, tags⟩ := r
  obtain rfl : place = .text := hr
  unfold escapeChar
  split_ifs with hamp hlt hgt hquot
  · rw [hamp]; rfl
  · rw [hlt]; rfl
  · rw [hgt]; rfl
  · rw [hquot]; rfl
  · simp [run, step, hamp, hlt]

/-- An escaped text is read as itself. -/
theorem run_escape {r : Reader} (hr : r.place = .text) (text : String) :
    r.run (escape text).toList = some { r with seen := text.toList.reverse ++ r.seen } := by
  rw [escape, String.toList_ofList]
  induction text.toList generalizing r with
  | nil => simp [run]
  | cons c cs ih =>
      rw [List.flatMap_cons, run_append, run_escapeChar hr, Option.bind_some, ih (by exact hr)]
      simp

theorem run_tag {r : Reader} (hr : r.place = .tag) {cs : List Char}
    (hcs : ∀ c ∈ cs, c ∉ ['>', '"', '\'']) :
    r.run cs = some { r with seen := cs.reverse ++ r.seen } := by
  induction cs generalizing r with
  | nil => simp [run]
  | cons c cs ih =>
      obtain ⟨hc, hcs⟩ := List.forall_mem_cons.1 hcs
      have hstep : r.step c = some { r with seen := c :: r.seen } := by
        simp only [List.mem_cons, List.not_mem_nil, or_false, not_or] at hc
        simp [step, hr, hc]
      rw [run_cons, hstep, Option.bind_some, ih (by exact hr) hcs]
      simp

theorem run_closing {r : Reader} {name : List Char} {opened : List (List Char)}
    {seen : List Char} (hr : r.Rests (name :: opened) seen)
    (hname : ∀ c ∈ name, c ∉ ['>', '"', '\'']) :
    r.run (closing name) =
      some { opened, tags := r.tags ++ [⟨String.ofList seen, String.ofList ('/' :: name)⟩] } := by
  obtain ⟨hplace, hseen, -, hopened⟩ := hr
  have hopen : r.step '<' =
      some { r with place := .tag, before := seen.reverse, seen := [] } := by
    simp [step, hplace, hseen]
  have htag : ∀ c ∈ '/' :: name, c ∉ ['>', '"', '\''] :=
    List.forall_mem_cons.2 ⟨by decide, hname⟩
  rw [closing, List.cons_append, run_cons, hopen, Option.bind_some, run_append,
    run_tag rfl htag, Option.bind_some]
  simp [run, step, nest, hopened]

/-- An element ends with the text that was escaped. -/
theorem run_field {name : List Char} (hname : ∀ c ∈ name, c ∉ ['>', '"', '\''])
    (opened : List (List Char)) (seen : List Char) (tags : List Tag) (text : String) :
    run { opened := name :: opened, seen := seen.reverse, tags }
        ((escape text).toList ++ closing name) =
      some { opened, tags := tags ++
        [⟨String.ofList seen ++ text, String.ofList ('/' :: name)⟩] } := by
  have hrests : Rests (name :: opened) (seen ++ text.toList)
      { opened := name :: opened, seen := text.toList.reverse ++ seen.reverse, tags } :=
    ⟨rfl, List.reverse_append.symm, rfl, rfl⟩
  rw [run_append, run_escape rfl, Option.bind_some, run_closing hrests hname,
    String.ofList_append, String.ofList_toList]

end Reader

end Markup

end EpsDapp
