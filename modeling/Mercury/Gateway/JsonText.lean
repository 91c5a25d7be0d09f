import Mercury.Foundations.TextFormat
import Mercury.Gateway.RecentCache

/-!
# The text of cached messages

The JSON that `Jason` writes for the list of recent messages, with the keys of each item
in order and no blanks, and a reader for it.
-/

namespace Mercury.Gateway.JsonText

open Foundations

def digit (value : ℕ) : Byte :=
  Fin.ofNat 256 (48 + value)

def digitOf (char : Byte) : Option ℕ :=
  if 48 ≤ char.val ∧ char.val ≤ 57 then some (char.val - 48) else none

theorem digitOf_digit : ∀ value < 10, digitOf (digit value) = some value := by
  decide

def number : Format Byte ℕ :=
  .decimal digit digitOf

/-- The quotation mark. -/
def quote : Byte :=
  34

/-- The character stands for itself in a string. -/
def IsUnescaped (char : Byte) : Prop :=
  32 ≤ char.val ∧ char ≠ quote ∧ char ≠ 92

instance : DecidablePred IsUnescaped :=
  fun _ => inferInstanceAs (Decidable (_ ∧ _))

/-- A string in which nothing is escaped, or `null`. -/
def nullable : Format Byte (Option Bytes) :=
  .orMark (ascii "null") (.after [quote] (.upTo quote))

def comma : Byte :=
  44

/-- The values of an item, each after its key, in the order of the text. -/
def fields : Format Byte (ℕ × ℕ × Option Bytes × Option Bytes × Option Bytes × Option Bytes) :=
  (Format.after (ascii "\x7b\"ca\":") number).pair
    ((Format.after (ascii ",\"ct\":") number).pair
      ((Format.after (ascii ",\"ec\":") nullable).pair
        ((Format.after (ascii ",\"mid\":") nullable).pair
          ((Format.after (ascii ",\"rt\":") nullable).pair
            (Format.after (ascii ",\"sid\":") nullable)))))

def message : Format Byte CachedMessage :=
  (fields.before (ascii "\x7d")).imap
    (fun (ca, ct, ec, mid, rt, sid) => ⟨mid, sid, ec, ct, ca, rt⟩)
    fun item => (item.ca, item.ct, item.ec, item.mid, item.rt, item.sid)

def messages : Format Byte (List CachedMessage) :=
  .after (ascii "[") (.separated comma 93 message)

/-- JSON, where no users are cached. -/
def json : Json where
  encodeUser := unusedJson.encodeUser
  decodes := unusedJson.decodes
  encodeMessages := messages.write
  decodeMessages text := (messages.read text).map Prod.fst

/-! ## Round trips -/

/-- The string needs no escapes. -/
def Plain (text : Option Bytes) : Prop :=
  ∀ present ∈ text, quote ∉ present

theorem reads_number : number.Reads (fun _ => True) (Format.NoDigit digitOf) :=
  Format.reads_decimal digitOf_digit

theorem reads_nullable : nullable.Reads Plain fun _ => True := by
  apply (Format.Reads.after [quote] (Format.reads_upTo quote)).orMark
  intro value rest isPrefix
  have first := List.cons_prefix_cons.mp (isPrefix : (110 : Byte) :: _ <+: quote :: _)
  exact absurd first.1 (by decide)

theorem noDigit_after {Value : Type} {format : Format Byte Value} {mark : Bytes}
    (nonempty : mark ≠ []) (other : ∀ char ∈ mark.head?, digitOf char = none) (value : Value)
    (rest : Bytes) : Format.NoDigit digitOf ((Format.after mark format).write value ++ rest) := by
  rcases mark with _ | ⟨char, later⟩
  · exact absurd rfl nonempty
  · intro symbol same
    cases same
    exact other char rfl

theorem noDigit_pair {Value Other : Type} {first : Format Byte Value}
    {second : Format Byte Other} {values : Value × Other} {rest : Bytes}
    (starts : ∀ rest, Format.NoDigit digitOf (first.write values.1 ++ rest)) :
    Format.NoDigit digitOf ((first.pair second).write values ++ rest) := by
  rw [Format.pair, List.append_assoc]
  exact starts _

theorem reads_fields :
    fields.Reads
      (fun (_, _, ec, mid, rt, sid) =>
        True ∧ True ∧ Plain ec ∧ Plain mid ∧ Plain rt ∧ Plain sid) fun _ => True := by
  have last := Format.Reads.after (ascii ",\"sid\":") reads_nullable
  have fromReply := (Format.Reads.after (ascii ",\"rt\":") reads_nullable).pair last
    fun _ _ _ _ => trivial
  have fromId := (Format.Reads.after (ascii ",\"mid\":") reads_nullable).pair fromReply
    fun _ _ _ _ => trivial
  have fromContent := (Format.Reads.after (ascii ",\"ec\":") reads_nullable).pair fromId
    fun _ _ _ _ => trivial
  have fromType := (Format.Reads.after (ascii ",\"ct\":") reads_number).pair fromContent
    fun _ _ _ _ => noDigit_pair (noDigit_after (by decide +kernel) (by decide +kernel) _)
  exact (Format.Reads.after (ascii "\x7b\"ca\":") reads_number).pair fromType
    fun _ _ _ _ => noDigit_pair (noDigit_after (by decide +kernel) (by decide +kernel) _)

theorem reads_message :
    message.Reads (fun item => Plain item.ec ∧ Plain item.mid ∧ Plain item.rt ∧ Plain item.sid)
      fun _ => True := by
  intro item rest plain _
  have closed := @Format.Reads.before _ _ _ _ _ _ (ascii "\x7d") reads_fields fun _ => trivial
  exact closed.imap (fun _ => rfl) item rest ⟨trivial, trivial, plain⟩ trivial

theorem reads_messages :
    messages.Reads
      (fun items => ∀ item ∈ items,
        Plain item.ec ∧ Plain item.mid ∧ Plain item.rt ∧ Plain item.sid) fun _ => True := by
  refine Format.Reads.after (ascii "[") (Format.Reads.separated reads_message (by decide)
    (fun _ => trivial) (fun _ => trivial) fun item => ?_)
  exact ⟨123, _, rfl, by decide⟩

theorem quote_ne_base64Digit (sextet : Fin 64) : quote ≠ Base.base64Digit sextet := by
  revert sextet
  decide

theorem quote_not_mem_encode64 (bytes : Bytes) : quote ∉ Base.encode64 bytes := by
  have notPadding : quote ≠ Base.padding := by decide
  induction bytes using Base.encode64.induct with
  | case1 => simp [Base.encode64]
  | case2 a => simp [Base.encode64, quote_ne_base64Digit, notPadding]
  | case3 a b => simp [Base.encode64, quote_ne_base64Digit, notPadding]
  | case4 a b c rest ih => simp [Base.encode64, quote_ne_base64Digit, ih]

theorem plain_encode64 (bytes : Bytes) : Plain (some (Base.encode64 bytes)) := by
  intro present same
  cases same
  exact quote_not_mem_encode64 bytes

theorem json_roundTrips : json.RoundTrips := by
  intro messages
  have plain : ∀ item ∈ messages.map Cache.serializeMessage,
      Plain item.ec ∧ Plain item.mid ∧ Plain item.rt ∧ Plain item.sid := by
    intro item itemMem
    rcases List.mem_map.mp itemMem with ⟨msg, -, rfl⟩
    refine ⟨plain_encode64 _, plain_encode64 _, ?_, plain_encode64 _⟩
    intro present presentMem
    rcases Option.map_eq_some_iff.mp presentMem with ⟨reply, -, rfl⟩
    exact quote_not_mem_encode64 reply
  have read := reads_messages _ [] plain trivial
  rw [List.append_nil] at read
  simp only [json, read, Option.map_some]

end Mercury.Gateway.JsonText
