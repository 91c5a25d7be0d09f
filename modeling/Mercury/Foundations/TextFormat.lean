import Mathlib.Data.Nat.Digits.Defs

/-!
# Formats of texts

A format writes a value down and reads it off the front of a text. Formats are put
together from smaller ones, and so are the proofs that they read back what they write.
-/

namespace Foundations

structure Format (Symbol Value : Type) where
  write : Value → List Symbol
  read : List Symbol → Option (Value × List Symbol)

namespace Format

variable {Symbol Value Other : Type}

/-- The format reads the values of `valid` back, in front of the texts of `follow`. -/
def Reads (format : Format Symbol Value) (valid : Value → Prop)
    (follow : List Symbol → Prop) : Prop :=
  ∀ value rest, valid value → follow rest →
    format.read (format.write value ++ rest) = some (value, rest)

/-- The format for other values that stand for the same ones. -/
def imap (format : Format Symbol Value) (build : Value → Other) (parts : Other → Value) :
    Format Symbol Other where
  write other := format.write (parts other)
  read text := (format.read text).map fun found => (build found.1, found.2)

theorem Reads.imap {format : Format Symbol Value} {valid : Value → Prop}
    {follow : List Symbol → Prop} {build : Value → Other} {parts : Other → Value}
    (reads : format.Reads valid follow) (inverse : ∀ other, build (parts other) = other) :
    (format.imap build parts).Reads (fun other => valid (parts other)) follow := by
  intro other rest isValid follows
  simp [Format.imap, reads _ _ isValid follows, inverse]

section Sequences

/-- One format after the other. -/
def pair (first : Format Symbol Value) (second : Format Symbol Other) :
    Format Symbol (Value × Other) where
  write values := first.write values.1 ++ second.write values.2
  read text :=
    (first.read text).bind fun found =>
      (second.read found.2).map fun later => ((found.1, later.1), later.2)

variable {first : Format Symbol Value} {second : Format Symbol Other} {valid : Value → Prop}
  {alsoValid : Other → Prop} {follow between : List Symbol → Prop}

theorem Reads.pair (firstReads : first.Reads valid between)
    (secondReads : second.Reads alsoValid follow)
    (fits : ∀ value rest, alsoValid value → follow rest → between (second.write value ++ rest)) :
    (first.pair second).Reads (fun values => valid values.1 ∧ alsoValid values.2) follow := by
  rintro ⟨value, other⟩ rest ⟨isValid, isAlsoValid⟩ follows
  simp [Format.pair, firstReads _ _ isValid (fits _ _ isAlsoValid follows),
    secondReads _ _ isAlsoValid follows]

variable [DecidableEq Symbol]

/-- The rest of a text that starts with `mark`. -/
def strip (mark text : List Symbol) : Option (List Symbol) :=
  if mark <+: text then some (text.drop mark.length) else none

theorem strip_append (mark rest : List Symbol) : strip mark (mark ++ rest) = some rest := by
  simp [strip]

/-- A mark, and then the format. -/
def after (mark : List Symbol) (format : Format Symbol Value) : Format Symbol Value where
  write value := mark ++ format.write value
  read text := (strip mark text).bind format.read

theorem Reads.after {format : Format Symbol Value} (mark : List Symbol)
    (reads : format.Reads valid follow) : (after mark format).Reads valid follow := by
  intro value rest isValid follows
  simp [Format.after, strip_append, reads _ _ isValid follows]

/-- The format, and then a mark. -/
def before (format : Format Symbol Value) (mark : List Symbol) : Format Symbol Value where
  write value := format.write value ++ mark
  read text := (format.read text).bind fun found =>
    (strip mark found.2).map fun rest => (found.1, rest)

theorem Reads.before {format : Format Symbol Value} {mark : List Symbol}
    (reads : format.Reads valid between) (fits : ∀ rest, between (mark ++ rest)) :
    (format.before mark).Reads valid fun _ => True := by
  intro value rest isValid _
  simp [Format.before, reads _ _ isValid (fits rest), strip_append]

/-- A mark for no value, or the format. -/
def orMark (mark : List Symbol) (format : Format Symbol Value) :
    Format Symbol (Option Value) where
  write
    | none => mark
    | some value => format.write value
  read text :=
    match strip mark text with
    | some rest => some (none, rest)
    | none => (format.read text).map fun found => (some found.1, found.2)

theorem Reads.orMark {format : Format Symbol Value} {mark : List Symbol}
    (reads : format.Reads valid follow)
    (distinct : ∀ value rest, ¬mark <+: format.write value ++ rest) :
    (orMark mark format).Reads (fun value => ∀ present ∈ value, valid present) follow := by
  rintro (_ | value) rest isValid follows
  · simp [Format.orMark, strip_append]
  · simp [Format.orMark, strip, distinct, reads _ _ (isValid value rfl) follows]

/-- The symbols before the first `stop`. -/
def upTo (stop : Symbol) : Format Symbol (List Symbol) where
  write value := value ++ [stop]
  read text :=
    match text.dropWhile (· ≠ stop) with
    | [] => none
    | _ :: rest => some (text.takeWhile (· ≠ stop), rest)

theorem reads_upTo (stop : Symbol) :
    (upTo stop).Reads (fun value => stop ∉ value) fun _ => True := by
  intro value rest isValid _
  have others : ∀ symbol ∈ value, decide (symbol ≠ stop) = true := by
    intro symbol symbolMem
    simpa using fun same : symbol = stop => isValid (same ▸ symbolMem)
  have dropped : (value ++ [stop] ++ rest).dropWhile (· ≠ stop) = stop :: rest := by
    rw [List.append_assoc, List.dropWhile_append_of_pos others]
    simp
  have taken : (value ++ [stop] ++ rest).takeWhile (· ≠ stop) = value := by
    rw [List.append_assoc, List.takeWhile_append_of_pos others]
    simp
  simp only [upTo, dropped, taken]

end Sequences

section Numbers

/-- The number in decimal digits. -/
def decimal (digit : ℕ → Symbol) (digitOf : Symbol → Option ℕ) : Format Symbol ℕ where
  write number :=
    if number = 0 then [digit 0] else (Nat.digits 10 number).reverse.map digit
  read text :=
    match text.takeWhile fun symbol => (digitOf symbol).isSome with
    | [] => none
    | digits => some (Nat.ofDigits 10 (digits.reverse.map fun symbol => (digitOf symbol).getD 0),
        text.dropWhile fun symbol => (digitOf symbol).isSome)

variable {digit : ℕ → Symbol} {digitOf : Symbol → Option ℕ}

/-- The text does not go on with a digit. -/
def NoDigit (digitOf : Symbol → Option ℕ) (text : List Symbol) : Prop :=
  ∀ symbol ∈ text.head?, digitOf symbol = none

theorem decimal_write (number : ℕ) :
    ∃ digits : List ℕ, digits ≠ [] ∧ (∀ value ∈ digits, value < 10) ∧
      Nat.ofDigits 10 digits.reverse = number ∧
      (decimal digit digitOf).write number = digits.map digit := by
  by_cases zero : number = 0
  · exact ⟨[0], by simp, by simp, by simp [zero], by simp [decimal, zero]⟩
  · refine ⟨(Nat.digits 10 number).reverse, ?_, ?_, ?_, ?_⟩
    · simpa using Nat.digits_ne_nil_iff_ne_zero.mpr zero
    · intro value valueMem
      exact Nat.digits_lt_base (by norm_num) (List.mem_reverse.mp valueMem)
    · rw [List.reverse_reverse, Nat.ofDigits_digits]
    · simp only [decimal, if_neg zero]

theorem reads_decimal (inverse : ∀ value < 10, digitOf (digit value) = some value) :
    (decimal digit digitOf).Reads (fun _ => True) (NoDigit digitOf) := by
  intro number rest _ follows
  rcases @decimal_write _ digit digitOf number with
    ⟨digits, nonempty, small, valueEq, written⟩
  have ends : ∀ {symbol later}, rest = symbol :: later → (digitOf symbol).isSome = false := by
    rintro symbol later rfl
    rw [follows symbol rfl]
    rfl
  have isDigits : ∀ symbol ∈ digits.map digit, (digitOf symbol).isSome = true := by
    intro symbol symbolMem
    rcases List.mem_map.mp symbolMem with ⟨value, valueMem, rfl⟩
    rw [inverse value (small value valueMem)]
    rfl
  have taken : (digits.map digit ++ rest).takeWhile (fun symbol => (digitOf symbol).isSome) =
      digits.map digit := by
    rw [List.takeWhile_append_of_pos isDigits]
    rcases rest with _ | ⟨symbol, later⟩
    · simp
    · simp [ends rfl]
  have dropped : (digits.map digit ++ rest).dropWhile (fun symbol => (digitOf symbol).isSome) =
      rest := by
    rw [List.dropWhile_append_of_pos isDigits]
    rcases rest with _ | ⟨symbol, later⟩
    · rfl
    · simp [ends rfl]
  have values : (digits.map digit).reverse.map (fun symbol => (digitOf symbol).getD 0) =
      digits.reverse := by
    rw [← List.map_reverse, List.map_map]
    refine (List.map_congr_left fun value valueMem => ?_).trans (List.map_id _)
    rw [Function.comp_apply, inverse value (small value (List.mem_reverse.mp valueMem))]
    rfl
  rw [written]
  simp only [decimal, taken, dropped]
  split
  · next none => exact absurd (List.map_eq_nil_iff.mp none) nonempty
  · rw [values, valueEq]

end Numbers

section Lists

variable (separator close : Symbol) (item : Format Symbol Value)

/-- What follows an item of a list. -/
def writeTail : List Value → List Symbol
  | [] => [close]
  | value :: later => separator :: (item.write value ++ writeTail later)

theorem length_writeTail (later : List Value) :
    later.length < (writeTail separator close item later).length := by
  induction later with
  | nil => simp [writeTail]
  | cons value later ih =>
      simp only [writeTail, List.length_cons, List.length_append]
      omega

theorem follow_writeTail {follow : List Symbol → Prop}
    (separates : ∀ rest, follow (separator :: rest)) (closes : ∀ rest, follow (close :: rest))
    (later : List Value) (rest : List Symbol) :
    follow (writeTail separator close item later ++ rest) := by
  cases later with
  | nil => exact closes rest
  | cons value later => exact separates _

variable [DecidableEq Symbol]

/-- Reads at most `fuel` items. -/
def readTail : ℕ → List Symbol → Option (List Value × List Symbol)
  | fuel + 1, symbol :: text =>
      if symbol = close then some ([], text)
      else if symbol = separator then
        (item.read text).bind fun found =>
          (readTail fuel found.2).map fun later => (found.1 :: later.1, later.2)
      else none
  | _, _ => none

/-- Items with separators between them, up to a closing symbol. -/
def separated : Format Symbol (List Value) where
  write
    | [] => [close]
    | value :: later => item.write value ++ writeTail separator close item later
  read text :=
    if text.head? = some close then some ([], text.tail)
    else (item.read text).bind fun found =>
      (readTail separator close item found.2.length found.2).map fun later =>
        (found.1 :: later.1, later.2)

variable {separator close item} {valid : Value → Prop} {follow : List Symbol → Prop}

theorem readTail_writeTail (reads : item.Reads valid follow) (different : separator ≠ close)
    (separates : ∀ rest, follow (separator :: rest)) (closes : ∀ rest, follow (close :: rest))
    {later : List Value} (areValid : ∀ value ∈ later, valid value) {fuel : ℕ}
    (enough : later.length < fuel) (rest : List Symbol) :
    readTail separator close item fuel (writeTail separator close item later ++ rest) =
      some (later, rest) := by
  induction later generalizing fuel with
  | nil =>
      obtain ⟨fuel, rfl⟩ := Nat.exists_eq_add_one_of_ne_zero (Nat.ne_of_gt enough)
      simp [writeTail, readTail]
  | cons value later ih =>
      obtain ⟨fuel, rfl⟩ :=
        Nat.exists_eq_add_one_of_ne_zero (Nat.ne_of_gt (Nat.zero_lt_of_lt enough))
      rcases List.forall_mem_cons.mp areValid with ⟨isValid, laterValid⟩
      have read := reads _ _ isValid
        (follow_writeTail separator close item separates closes later rest)
      simp only [writeTail, List.cons_append, List.append_assoc, readTail, if_neg different,
        if_true, read, Option.bind_some]
      rw [ih laterValid (Nat.lt_of_succ_lt_succ enough)]
      rfl

theorem Reads.separated (reads : item.Reads valid follow) (different : separator ≠ close)
    (separates : ∀ rest, follow (separator :: rest)) (closes : ∀ rest, follow (close :: rest))
    (starts : ∀ value, ∃ symbol later, item.write value = symbol :: later ∧ symbol ≠ close) :
    (separated separator close item).Reads (fun values => ∀ value ∈ values, valid value)
      fun _ => True := by
  rintro (_ | ⟨value, later⟩) rest areValid _
  · simp [Format.separated]
  rcases List.forall_mem_cons.mp areValid with ⟨isValid, laterValid⟩
  have read := reads _ _ isValid (follow_writeTail separator close item separates closes later rest)
  have goesOn : (item.write value ++ (writeTail separator close item later ++ rest)).head? ≠
      some close := by
    rcases starts value with ⟨symbol, text, writtenEq, other⟩
    simpa [writtenEq] using other
  simp only [Format.separated, List.append_assoc, if_neg goesOn, read, Option.bind_some]
  rw [readTail_writeTail reads different separates closes laterValid
    (by rw [List.length_append]; exact Nat.lt_add_right _ (length_writeTail _ _ _ later))]
  rfl

end Lists

section Repetitions

/-- What is read was written where it was read, and is one of the values of `valid`. -/
def Exact (format : Format Symbol Value) (valid : Value → Prop) : Prop :=
  ∀ text value rest, format.read text = some (value, rest) →
    valid value ∧ text = format.write value ++ rest

variable (format : Format Symbol Value)

/-- The values that a text starts with, at most `count` of them, and what follows them. -/
def readUpTo : ℕ → List Symbol → List Value × List Symbol
  | 0, text => ([], text)
  | count + 1, text =>
      match format.read text with
      | none => ([], text)
      | some (value, rest) => (value :: (readUpTo count rest).1, (readUpTo count rest).2)

/-- The text starts with the values, which are at most `count` ones of `valid`. -/
structure StartsWith (valid : Value → Prop) (count : ℕ) (text : List Symbol)
    (values : List Value) : Prop where
  valid : ∀ value ∈ values, valid value
  bounded : values.length ≤ count
  written : values.flatMap format.write <+: text

variable {format} {valid : Value → Prop}

theorem readUpTo_spec (exact : format.Exact valid) (count : ℕ) (text : List Symbol) :
    (∀ value ∈ (format.readUpTo count text).1, valid value) ∧
      (format.readUpTo count text).1.length ≤ count ∧
      text = (format.readUpTo count text).1.flatMap format.write ++
        (format.readUpTo count text).2 := by
  induction count generalizing text with
  | zero => simp [readUpTo]
  | succ count ih =>
      rcases readEq : format.read text with _ | ⟨value, rest⟩
      · simp [readUpTo, readEq]
      · rcases exact _ _ _ readEq with ⟨isValid, written⟩
        rcases ih rest with ⟨areValid, bounded, restEq⟩
        simp only [readUpTo, readEq, List.mem_cons, forall_eq_or_imp, List.length_cons,
          List.flatMap_cons, List.append_assoc, ← restEq]
        exact ⟨⟨isValid, areValid⟩, Nat.succ_le_succ bounded, written⟩

theorem startsWith_readUpTo (exact : format.Exact valid) (count : ℕ) (text : List Symbol) :
    format.StartsWith valid count text (format.readUpTo count text).1 := by
  rcases readUpTo_spec exact count text with ⟨areValid, bounded, written⟩
  exact ⟨areValid, bounded, ⟨_, written.symm⟩⟩

/-- Nothing longer is at the front of the text. -/
theorem StartsWith.isPrefix {count : ℕ} {text : List Symbol} {values : List Value}
    (starts : format.StartsWith valid count text values)
    (reads : format.Reads valid fun _ => True) :
    values <+: (format.readUpTo count text).1 := by
  induction values generalizing count text with
  | nil => exact List.nil_prefix
  | cons value later ih =>
      rcases starts with ⟨areValid, bounded, ⟨rest, written⟩⟩
      rcases List.forall_mem_cons.mp areValid with ⟨isValid, laterValid⟩
      obtain ⟨count, rfl⟩ := Nat.exists_eq_add_one_of_ne_zero
        (Nat.ne_of_gt (Nat.lt_of_lt_of_le (Nat.zero_lt_succ _) bounded))
      rw [List.flatMap_cons, List.append_assoc] at written
      have read := reads value (later.flatMap format.write ++ rest) isValid trivial
      rw [written] at read
      simp only [readUpTo, read]
      rw [List.prefix_cons_inj]
      exact ih ⟨laterValid, Nat.le_of_succ_le_succ bounded, ⟨rest, rfl⟩⟩

/-- Values that are written one after the other are read back, all that are counted. -/
theorem Reads.readUpTo_written {values : List Value}
    (reads : format.Reads valid fun _ => True) (areValid : ∀ value ∈ values, valid value)
    (rest : List Symbol) :
    format.readUpTo values.length (values.flatMap format.write ++ rest) = (values, rest) := by
  induction values with
  | nil => rfl
  | cons value later ih =>
      rcases List.forall_mem_cons.mp areValid with ⟨isValid, laterValid⟩
      have read := reads value (later.flatMap format.write ++ rest) isValid trivial
      rw [← List.append_assoc, ← List.flatMap_cons] at read
      simp only [List.length_cons, readUpTo, read, ih laterValid]

/-- The text is made of values, up to the count of them, or up to the end. -/
theorem readUpTo_ends_iff (reads : format.Reads valid fun _ => True)
    (exact : format.Exact valid) (count : ℕ) (text : List Symbol) :
    ((format.readUpTo count text).1.length = count ∨ (format.readUpTo count text).2 = []) ↔
      ∃ (values : List Value) (rest : List Symbol), (∀ value ∈ values, valid value) ∧
        text = values.flatMap format.write ++ rest ∧
        (values.length = count ∨ values.length < count ∧ rest = []) := by
  rcases readUpTo_spec exact count text with ⟨areValid, bounded, written⟩
  constructor
  · intro ends
    refine ⟨_, _, areValid, written, ?_⟩
    rcases Nat.lt_or_ge (format.readUpTo count text).1.length count with fewer | all
    · exact .inr ⟨fewer, ends.resolve_left (Nat.ne_of_lt fewer)⟩
    · exact .inl (Nat.le_antisymm bounded all)
  · rintro ⟨values, rest, valuesValid, textEq, ends⟩
    have short : values.length ≤ count := by omega
    have starts : format.StartsWith valid count text values :=
      ⟨valuesValid, short, ⟨rest, textEq.symm⟩⟩
    rcases starts.isPrefix reads with ⟨more, moreEq⟩
    rcases ends with all | ⟨-, rfl⟩
    · have lengths := congrArg List.length moreEq
      rw [List.length_append] at lengths
      exact .inl (by omega)
    · rw [← moreEq, List.flatMap_append, List.append_assoc] at written
      have none := List.append_cancel_left (written.symm.trans textEq)
      exact .inr (List.append_eq_nil_iff.mp none).2

end Repetitions

end Format

end Foundations
