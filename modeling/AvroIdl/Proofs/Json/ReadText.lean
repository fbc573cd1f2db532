import AvroIdl.Proofs.Json.ReadNumber
import AvroIdl.Proofs.Json.Uncommented
import AvroIdl.Proofs.Json.Unquoting

/-
Every text that the grammar allows is read, as the value that it spells with the numbers as they
are kept. The reader is followed from token to token, and from there from value to value.
-/
set_option autoImplicit false

namespace AvroIdl.Json

open Text

/-- A number begins with no blank, no quote and no sign that ends or separates values. -/
theorem Numeral.exists_cons (n : Numeral) :
    ∃ c others, n.text = c :: others ∧ c.toNat < 0x80 ∧ isSpace c = false ∧
      c ∉ ['"', ']', '\x7d', ',', ':'] := by
  obtain ⟨c, others, isText⟩ := List.exists_cons_of_ne_nil (Token.Spelled.number n).ne_nil
  have member : c ∈ n.text := by
    rw [isText]
    exact List.mem_cons_self
  refine ⟨c, others, isText, n.ascii c member, ?_, ?_⟩
  · rw [Bool.eq_false_iff]
    intro space
    rcases isSpace_iff.mp space with rfl | rfl | rfl | rfl <;>
      exact n.not_mem_text rfl (by decide) (by decide) member
  · simp only [List.mem_cons, List.not_mem_nil, or_false]
    rintro (rfl | rfl | rfl | rfl | rfl) <;>
      exact n.not_mem_text rfl (by decide) (by decide) member

namespace Reader

variable {r next : Reader} {waiting : List Frame} {tokens more : List Token}

/-- The reader takes the rest of the text, and has the value at its end. -/
def Reads (r : Reader) (text : List Char) (json : Json) : Prop :=
  ∃ after, r.Passes (encode text) after ∧ after.finish = .ok json

/-- The reader takes every text with these tokens, and has the value at its end. -/
def Ends (r : Reader) (tokens : List Token) (json : Json) : Prop :=
  ∀ text, Lexed Blanks Blanks tokens text → r.Reads text json

/-- The tokens bring the reader to where `next` is, whatever comes after them. -/
def Leads (r : Reader) (tokens : List Token) (next : Reader) : Prop :=
  ∀ more json, next.Ends more json → r.Ends (tokens ++ more) json

/-- Every text of the token brings the reader to where `next` is, before a text in which the token
ends. -/
def Takes (r : Reader) (token : Token) (next : Reader) : Prop :=
  ∀ (text rest : List Char) (json : Json), token.Spelled text → token.EndsBefore rest →
    (r.Reads (text ++ rest) json ↔ next.Reads rest json)

theorem reads_nil_iff {json : Json} : r.Reads [] json ↔ r.finish = .ok json := by
  constructor
  · rintro ⟨after, passes, finished⟩
    cases passes
    exact finished
  · intro finished
    exact ⟨r, passes_nil r, finished⟩

theorem reads_append_iff {text rest : List Char} {json : Json}
    (passes : r.Passes (encode text) next) :
    r.Reads (text ++ rest) json ↔ next.Reads rest json := by
  simp only [Reads, encode_append, passes_append_iff passes]

theorem leads_nil (r : Reader) : r.Leads [] r :=
  fun _ _ ends => ends

theorem Leads.append {last : Reader} (first : r.Leads tokens next) (second : next.Leads more last) :
    r.Leads (tokens ++ more) last := by
  intro rest json ends
  rw [List.append_assoc]
  exact first _ _ (second _ _ ends)

theorem Leads.cons {last : Reader} {token : Token} (first : r.Leads [token] next)
    (second : next.Leads more last) : r.Leads (token :: more) last :=
  first.append second

/-- The reader stands between tokens. -/
def IsBetween (r : Reader) : Prop :=
  ∃ place, r.mode = .between place

theorem passes_blanks (between : r.IsBetween) {gap : List Char} (blanks : Blanks gap) :
    r.Passes (encode gap) r := by
  obtain ⟨waiting, mode⟩ := r
  obtain ⟨place, rfl⟩ := between
  induction gap with
  | nil => exact passes_nil _
  | cons c gap ih =>
    obtain ⟨space, others⟩ := List.forall_mem_cons.mp blanks
    rcases isSpace_iff.mp space with rfl | rfl | rfl | rfl <;>
      exact .ascii (by decide) rfl (ih others)

theorem Takes.leads {token : Token} (takes : r.Takes token next) (between : r.IsBetween) :
    r.Leads [token] next := by
  intro more json ends text lexed
  cases lexed with
  | token blanks spelled stops after =>
    exact (reads_append_iff (passes_blanks between blanks)).mpr
      ((takes _ _ json spelled stops).mpr (ends _ after))

theorem takes_of_passes {token : Token}
    (passes : ∀ {text : List Char}, token.Spelled text → r.Passes (encode text) next) :
    r.Takes token next :=
  fun _ _ _ spelled _ => reads_append_iff (passes spelled)

/-- The signs that stand for themselves. -/
def Token.sign? : Token → Option Char
  | .openList => some '['
  | .closeList => some ']'
  | .openObject => some '\x7b'
  | .closeObject => some '\x7d'
  | .comma => some ','
  | .colon => some ':'
  | _ => none

theorem takes_sign {token : Token} {sign : Char} (isSign : Token.sign? token = some sign)
    (stepped : r.step (UInt8.ofNat sign.toNat) = .ok next) : r.Takes token next := by
  refine takes_of_passes fun spelled => ?_
  cases spelled <;> cases isSign <;> exact .ascii (by decide) stepped (passes_nil _)

theorem leads_sign {token : Token} {sign : Char} (between : r.IsBetween)
    (isSign : Token.sign? token = some sign)
    (stepped : r.step (UInt8.ofNat sign.toNat) = .ok next) : r.Leads [token] next :=
  (takes_sign isSign stepped).leads between

/-- A value begins with the next sign, unless that closes a list. -/
structure Awaits (r : Reader) (waiting : List Frame) : Prop where
  between : r.IsBetween
  begins : ∀ byte : UInt8, isBlank byte = false → Char.ofUInt8 byte ≠ ']' →
    r.step byte = beginValue waiting byte

theorem awaits_of_place {outer waiting : List Frame} {place : Place}
    (begins : ∀ byte : UInt8, Char.ofUInt8 byte ≠ ']' →
      stepPlace outer place byte = beginValue waiting byte) :
    Awaits ⟨outer, .between place⟩ waiting := by
  refine ⟨⟨_, rfl⟩, fun byte noBlank noClose => ?_⟩
  rw [step]
  dsimp only
  rw [stepBetween, if_neg (by rw [noBlank]; exact Bool.false_ne_true), begins byte noClose]

theorem awaits_value (waiting : List Frame) : Awaits ⟨waiting, .between .value⟩ waiting :=
  awaits_of_place fun _ _ => by rw [stepPlace]

theorem awaits_first (waiting : List Frame) :
    Awaits ⟨waiting, .between .listStart⟩ (.list [] :: waiting) :=
  awaits_of_place fun _ noClose => by simp [stepPlace]

theorem awaits_next (waiting : List Frame) (items : List Json) :
    Awaits ⟨waiting, .between (.listNext items)⟩ (.list items :: waiting) :=
  awaits_of_place fun _ noClose => by simp [stepPlace]

/-- A character that begins a value does the same wherever one is awaited. -/
theorem Awaits.step_eq (awaits : r.Awaits waiting) {c : Char} (ascii : c.toNat < 0x80)
    (noSpace : isSpace c = false) (noClose : c ≠ ']') :
    r.step (UInt8.ofNat c.toNat) = (ready waiting).step (UInt8.ofNat c.toNat) := by
  have same := ofUInt8_of_ascii ascii
  have noBlank : isBlank (UInt8.ofNat c.toNat) = false := by rwa [isBlank_eq, same]
  have noClose' : Char.ofUInt8 (UInt8.ofNat c.toNat) ≠ ']' := by rwa [same]
  rw [awaits.begins _ noBlank noClose', (awaits_value waiting).begins _ noBlank noClose']

theorem Awaits.passes (awaits : r.Awaits waiting) {c : Char} {rest : List Char}
    (ascii : c.toNat < 0x80) (noSpace : isSpace c = false) (noClose : c ≠ ']')
    (passes : (ready waiting).Passes (encode (c :: rest)) next) :
    r.Passes (encode (c :: rest)) next := by
  rw [encode_cons_of_ascii ascii, passes_cons_iff] at passes ⊢
  rwa [awaits.step_eq ascii noSpace noClose]

theorem Awaits.takes_null (awaits : r.Awaits waiting) :
    r.Takes .null (completed waiting .null) := by
  refine takes_of_passes fun spelled => ?_
  cases spelled
  exact awaits.passes (by decide) rfl (by decide) rfl

theorem Awaits.takes_bool (awaits : r.Awaits waiting) (value : Bool) :
    r.Takes (.bool value) (completed waiting (.bool value)) := by
  refine takes_of_passes fun spelled => ?_
  cases spelled <;> exact awaits.passes (by decide) rfl (by decide) rfl

theorem Awaits.takes_string (awaits : r.Awaits waiting) (text : String) :
    r.Takes (.string text) (completed waiting (.string text)) := by
  refine takes_of_passes fun spelled => ?_
  cases spelled with
  | @string _ inner quotes =>
    have inside : (inString waiting .plain []).Passes (encode inner)
        (inString waiting .plain ((encode text.toList).reverse ++ [])) := quotes.goes.passes_string
    rw [List.append_nil] at inside
    have closes : (inString waiting .plain (bytes text).reverse).Passes (encode ['"'])
        (completed waiting (.string text)) := .ascii (by decide) (closes_string text) (passes_nil _)
    refine awaits.passes (by decide) rfl (by decide) (.ascii (by decide) rfl ?_)
    rw [encode_append]
    exact inside.append closes

/-- A byte that does not go on with a number that may end here does what it does after it. -/
theorem step_of_mayEnd {part : NumberPart} (ends : part.mayEnd = true) {text : List Char}
    {byte : UInt8} (stops : Token.continuesNumber (Char.ofUInt8 byte) = false) :
    (inNumber waiting part text).step byte =
      (completed waiting (.number (String.ofList text.reverse))).step byte := by
  simp only [Token.continuesNumber, Bool.or_eq_false_iff, decide_eq_false_iff_not] at stops
  obtain ⟨⟨⟨digit, point⟩, small⟩, large⟩ := stops
  have same : (inNumber waiting part text).step byte = endNumber waiting text byte := by
    cases part <;> simp_all [NumberPart.mayEnd, step, stepNumber]
  exact same

theorem isDigit_of_wide {byte : UInt8} (wide : 0x80 ≤ byte.toNat) :
    (Char.ofUInt8 byte).isDigit = false := by
  rw [Bool.eq_false_iff]
  intro digit
  have small := ascii_of_isDigit digit
  rw [toNat_ofUInt8] at small
  omega

theorem continuesNumber_of_wide {byte : UInt8} (wide : 0x80 ≤ byte.toNat) :
    Token.continuesNumber (Char.ofUInt8 byte) = false := by
  have digit := isDigit_of_wide wide
  have point : Char.ofUInt8 byte ≠ '.' := ofUInt8_ne wide (by decide)
  have small : Char.ofUInt8 byte ≠ 'e' := ofUInt8_ne wide (by decide)
  have large : Char.ofUInt8 byte ≠ 'E' := ofUInt8_ne wide (by decide)
  simp [Token.continuesNumber, digit, point, small, large]

theorem continuesNumber_of_mem {c : Char} (stops : Token.continuesNumber c = false) {byte : UInt8}
    (member : byte ∈ String.utf8EncodeChar c) :
    Token.continuesNumber (Char.ofUInt8 byte) = false := by
  by_cases ascii : c.toNat < 0x80
  · rw [utf8EncodeChar_of_ascii ascii] at member
    rwa [List.mem_singleton.mp member, ofUInt8_of_ascii ascii]
  · exact continuesNumber_of_wide (le_of_mem_utf8EncodeChar (Nat.not_lt.mp ascii) member)

/-- A number is complete before a text that does not go on with it. -/
theorem reads_iff_of_mayEnd {part : NumberPart} (ends : part.mayEnd = true)
    {text rest : List Char} {json : Json}
    (stops : ∀ c ∈ rest.head?, Token.continuesNumber c = false) :
    (inNumber waiting part text).Reads rest json ↔
      (completed waiting (.number (String.ofList text.reverse))).Reads rest json := by
  -- At the end of the text nothing comes that could end the number, so it ends by itself.
  cases rest with
  | nil =>
    rw [reads_nil_iff, reads_nil_iff, finish]
    dsimp only
    rw [if_pos ends]
    rfl
  | cons c rest =>
    have others : ∀ byte ∈ String.utf8EncodeChar c,
        Token.continuesNumber (Char.ofUInt8 byte) = false :=
      fun _ => continuesNumber_of_mem (stops c rfl)
    rw [Reads, Reads, encode_cons]
    cases isEncoded : String.utf8EncodeChar c with
    | nil => exact absurd isEncoded String.utf8EncodeChar_ne_nil
    | cons byte more =>
      rw [isEncoded] at others
      simp only [List.cons_append, passes_cons_iff,
        step_of_mayEnd ends (others byte List.mem_cons_self)]

theorem Awaits.passes_numeral (awaits : r.Awaits waiting) {n : Numeral}
    (passes : (ready waiting).Passes (encode n.text) next) : r.Passes (encode n.text) next := by
  obtain ⟨c, others, isText, ascii, noSpace, noSign⟩ := n.exists_cons
  have noClose : c ≠ ']' := by
    rintro rfl
    exact noSign (by decide)
  rw [isText] at passes ⊢
  exact awaits.passes ascii noSpace noClose passes

theorem Awaits.takes_number (awaits : r.Awaits waiting) (n : Numeral) :
    r.Takes (.number n) (completed waiting (.number n.normal.token)) := by
  intro text rest json spelled stops
  cases spelled
  obtain ⟨part, ends, passes⟩ := Reader.passes_numeral n waiting
  rw [reads_append_iff (awaits.passes_numeral passes), reads_iff_of_mayEnd ends stops,
    List.reverse_reverse]
  rfl

/-- A name in quotes may come next. -/
structure AwaitsKey (r : Reader) (waiting : List Frame) (members : Members) : Prop where
  between : r.IsBetween
  begins : r.step 0x22 = .ok ⟨waiting, .key members .plain []⟩

theorem closes_key (members : Members) (key : String) :
    (⟨waiting, .key members .plain (bytes key).reverse⟩ : Reader).step 0x22 =
      .ok ⟨waiting, .between (.colon members key)⟩ := by
  have closed : stepString .plain (bytes key).reverse 0x22 =
      .ok (.closed (bytes key).reverse) := rfl
  have whole : closeString (bytes key).reverse = .ok key := by
    rw [closeString, List.reverse_reverse, ofBytes?_bytes]
  rw [step]
  dsimp only
  rw [closed]
  dsimp only
  rw [whole]
  rfl

theorem AwaitsKey.takes_key {members : Members} (awaits : r.AwaitsKey waiting members)
    (key : String) : r.Takes (.string key) ⟨waiting, .between (.colon members key)⟩ := by
  refine takes_of_passes fun spelled => ?_
  cases spelled with
  | @string _ inner quotes =>
    have inside : Passes ⟨waiting, .key members .plain []⟩ (encode inner)
        ⟨waiting, .key members .plain ((encode key.toList).reverse ++ [])⟩ :=
      quotes.goes.passes_key
    rw [List.append_nil] at inside
    refine .ascii (by decide) awaits.begins ?_
    rw [encode_append]
    exact inside.append (.ascii (by decide) (closes_key members key) (passes_nil _))

/-- After a name and a colon the value is awaited. -/
theorem AwaitsKey.leads {members : Members} (awaits : r.AwaitsKey waiting members) (key : String) :
    r.Leads [.string key, .colon] (ready (.object members key :: waiting)) :=
  ((awaits.takes_key key).leads awaits.between).cons (leads_sign ⟨_, rfl⟩ rfl rfl)

theorem Awaits.leads_openList (awaits : r.Awaits waiting) (room : waiting.length < maxDepth) :
    r.Leads [.openList] ⟨waiting, .between .listStart⟩ := by
  refine leads_sign awaits.between rfl ?_
  rw [awaits.begins _ rfl (by decide)]
  exact if_pos room

theorem Awaits.leads_openObject (awaits : r.Awaits waiting) (room : waiting.length < maxDepth) :
    r.Leads [.openObject] ⟨waiting, .between .objectStart⟩ := by
  refine leads_sign awaits.between rfl ?_
  rw [awaits.begins _ rfl (by decide)]
  exact if_pos room

theorem leads_closeList (waiting : List Frame) (items : List Json) :
    Leads ⟨waiting, .between (.listMore items)⟩ [.closeList]
      (completed waiting (.array items.reverse)) :=
  leads_sign ⟨_, rfl⟩ rfl rfl

theorem leads_closeObject (waiting : List Frame) (members : Members) :
    Leads ⟨waiting, .between (.objectMore members)⟩ [.closeObject]
      (completed waiting (.object members)) :=
  leads_sign ⟨_, rfl⟩ rfl rfl

end Reader

open Reader

mutual

/-- The tokens of a value complete it where it is awaited. -/
theorem IsValue.leads {room : Nat} {tokens : List Token} {json : Json} {r : Reader}
    {waiting : List Frame} : IsValue room tokens json → r.Awaits waiting →
      waiting.length + room ≤ maxDepth →
        r.Leads tokens (completed waiting (json.mapNumbers normalSpelling))
  | .null, awaits, _ => awaits.takes_null.leads awaits.between
  | .bool value, awaits, _ => (awaits.takes_bool value).leads awaits.between
  | .number n, awaits, _ => by
    rw [mapNumbers, normalSpelling_token]
    exact (awaits.takes_number n).leads awaits.between
  | .string text, awaits, _ => (awaits.takes_string text).leads awaits.between
  | .emptyList, awaits, fits =>
    (awaits.leads_openList (by omega)).cons (leads_sign ⟨_, rfl⟩ rfl rfl)
  | @IsValue.list room tokens rest item items first others, awaits, fits => by
    have inside : (.list [] :: waiting : List Frame).length + room ≤ maxDepth := by
      rw [List.length_cons]
      omega
    have head := first.leads (awaits_first waiting) inside
    have tail := others.leads waiting [item.mapNumbers normalSpelling] inside
    have closes := leads_closeList waiting
      ((mapNumbersInItems normalSpelling items).reverse ++ [item.mapNumbers normalSpelling])
    rw [List.reverse_append, List.reverse_reverse] at closes
    exact (awaits.leads_openList (by omega)).cons (head.append (tail.append closes))
  | .emptyObject, awaits, fits =>
    (awaits.leads_openObject (by omega)).cons (leads_sign ⟨_, rfl⟩ rfl rfl)
  | @IsValue.object room key tokens rest value members first others, awaits, fits => by
    have inside : (.object [] key :: waiting : List Frame).length + room ≤ maxDepth := by
      rw [List.length_cons]
      omega
    have named : AwaitsKey ⟨waiting, .between .objectStart⟩ waiting [] := ⟨⟨_, rfl⟩, rfl⟩
    have head := first.leads (awaits_value (.object [] key :: waiting)) inside
    have tail := others.leads waiting inside
    exact (awaits.leads_openObject (by omega)).cons
      ((named.leads key).append (head.append (tail.append (leads_closeObject waiting _))))

theorem AreItems.leads {room : Nat} {tokens : List Token} {items : List Json}
    (waiting : List Frame) (done : List Json) : AreItems room tokens items →
      (.list done :: waiting : List Frame).length + room ≤ maxDepth →
        Leads ⟨waiting, .between (.listMore done)⟩ tokens
          ⟨waiting, .between (.listMore ((mapNumbersInItems normalSpelling items).reverse ++ done))⟩
  | .nil, _ => leads_nil _
  | @AreItems.cons room tokens rest item items first others, fits => by
    have comma : Leads ⟨waiting, .between (.listMore done)⟩ [.comma]
        ⟨waiting, .between (.listNext done)⟩ := leads_sign ⟨_, rfl⟩ rfl rfl
    -- The items that are done grow with each one, so the statement is about any of them.
    have head := first.leads (awaits_next waiting done) fits
    have tail := others.leads waiting (item.mapNumbers normalSpelling :: done) fits
    rw [mapNumbersInItems, List.reverse_cons, List.append_assoc]
    exact comma.cons (head.append tail)

theorem AreMembers.leads {room : Nat} {tokens : List Token} {before members : Members}
    (waiting : List Frame) : AreMembers room before tokens members →
      waiting.length + 1 + room ≤ maxDepth →
        Leads ⟨waiting, .between (.objectMore (mapNumbersInMembers normalSpelling before))⟩ tokens
          ⟨waiting, .between (.objectMore (mapNumbersInMembers normalSpelling members))⟩
  | .nil, _ => leads_nil _
  | @AreMembers.cons room key tokens rest value before members first others, fits => by
    have comma : Leads ⟨waiting, .between (.objectMore (mapNumbersInMembers normalSpelling before))⟩
        [.comma] ⟨waiting, .between (.objectNext (mapNumbersInMembers normalSpelling before))⟩ :=
      leads_sign ⟨_, rfl⟩ rfl rfl
    have named : AwaitsKey
        ⟨waiting, .between (.objectNext (mapNumbersInMembers normalSpelling before))⟩ waiting
        (mapNumbersInMembers normalSpelling before) := ⟨⟨_, rfl⟩, rfl⟩
    have head := first.leads (awaits_value
      (.object (mapNumbersInMembers normalSpelling before) key :: waiting)) fits
    have tail := others.leads waiting fits
    rw [mapNumbersInMembers_insert] at tail
    exact comma.cons ((named.leads key).append (head.append tail))

end

/-- The tokens of a value are read as that value, with its numbers as they are kept. -/
theorem IsValue.ends {tokens : List Token} {json : Json} (isValue : IsValue maxDepth tokens json) :
    start.Ends tokens (json.mapNumbers normalSpelling) := by
  have fits : ([] : List Frame).length + maxDepth ≤ maxDepth := Nat.le_of_eq (Nat.zero_add _)
  have leads := isValue.leads (awaits_value []) fits
  have ends : (completed [] (json.mapNumbers normalSpelling)).Ends []
      (json.mapNumbers normalSpelling) := by
    intro gap lexed
    cases lexed with
    | last blanks => exact ⟨_, passes_blanks ⟨_, rfl⟩ blanks, rfl⟩
  have whole := leads [] _ ends
  rwa [List.append_nil] at whole

theorem run_of_reads {text : List Char} {json : Json} (reads : start.Reads text json) :
    start.run true .start ((encode text).map some) = .ok json := by
  obtain ⟨after, passes, finished⟩ := reads
  have ran := run_eq_finish .start passes
  rwa [finished] at ran

/-- A text with comments is read as any text with its tokens is. -/
theorem read_of_ends {source : String} {tokens : List Token} {json : Json}
    (ends : start.Ends tokens json) (lexed : Lexed Gap LastGap tokens source.toList) :
    read source = .ok json := by
  obtain ⟨plain, lexed, -, strips⟩ := lexed.strips
  have uncommented : uncomment (bytes source) = ⟨(encode plain).map some, true⟩ := strips
  rw [read, uncommented]
  exact run_of_reads (ends plain lexed)

/-- A text that is JSON with comments is read as the value that it spells, with its numbers as
they are kept. -/
theorem read_of_spells {source : String} {json : Json} (spells : Spells source json) :
    read source = .ok (json.mapNumbers normalSpelling) := by
  obtain ⟨tokens, lexed, isValue⟩ := spells
  exact read_of_ends isValue.ends lexed

end AvroIdl.Json
