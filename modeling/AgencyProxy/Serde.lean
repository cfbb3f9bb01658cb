import Mathlib.Tactic

/-!
# Reading and writing JSON values

`Value` is a JSON value, and also a JSON document: the members of an object are listed in the
order of the text, and a value that was read has them in key order. A type is written by a
function to `Value` and read by a `Reader`. The readers are those that serde derives: a struct
takes each field from the members of an object, a field that is given twice is an error, and
members that are no field are passed over; an enum takes its variant from a string, from a
tag among the fields, or from a tag beside a content.
-/

namespace Serde

inductive Value where
  | null
  | bool (b : Bool)
  | number (n : Int)
  | string (s : String)
  | array (items : List Value)
  | object (fields : List (String × Value))

/-- Reads a document; `none` is an error. -/
abbrev Reader (α : Type) := Value → Option α

abbrev Members := List (String × Value)

variable {α : Type}

/-! ## Maps -/

/-- The entries of a map, which has them in key order. -/
def InKeyOrder (entries : List (String × α)) : Prop :=
  entries.Pairwise fun a b => a.1 < b.1

instance (entries : List (String × α)) : Decidable (InKeyOrder entries) :=
  inferInstanceAs (Decidable (List.Pairwise _ _))

def insertEntry (key : String) (value : α) : List (String × α) → List (String × α)
  | [] => [(key, value)]
  | entry :: rest =>
    if key < entry.1 then (key, value) :: entry :: rest
    else if key = entry.1 then (key, value) :: rest
    else entry :: insertEntry key value rest

/-- The map that the entries make; the last one for a key stays. -/
def collect (entries : List (String × α)) : List (String × α) :=
  entries.foldl (fun m entry => insertEntry entry.1 entry.2 m) []

theorem insertEntry_last {key : String} {value : α} {m : List (String × α)}
    (h : ∀ entry ∈ m, entry.1 < key) : insertEntry key value m = m ++ [(key, value)] := by
  induction m with
  | nil => rfl
  | cons entry rest ih =>
    have hlt : entry.1 < key := h entry (by simp)
    rw [insertEntry, if_neg (String.lt_asymm hlt), if_neg (String.ne_of_lt hlt).symm,
      ih fun e he => h e (by simp [he])]
    rfl

theorem foldl_insertEntry {entries m : List (String × α)} (h : InKeyOrder (m ++ entries)) :
    entries.foldl (fun m entry => insertEntry entry.1 entry.2 m) m = m ++ entries := by
  induction entries generalizing m with
  | nil => simp
  | cons entry rest ih =>
    have hlast : insertEntry entry.1 entry.2 m = m ++ [entry] :=
      insertEntry_last fun e he => (List.pairwise_append.1 h).2.2 e he entry (by simp)
    rw [List.foldl_cons, hlast, ih (by simpa using h)]
    simp

theorem collect_of_inKeyOrder {entries : List (String × α)} (h : InKeyOrder entries) :
    collect entries = entries := foldl_insertEntry h

/-! ## Values -/

mutual

/-- A value read from a document: the members of each object make a map. -/
def Value.read : Value → Value
  | .array items => .array (readItems items)
  | .object members => .object (collect (readMembers members))
  | v => v

def readItems : List Value → List Value
  | [] => []
  | item :: rest => item.read :: readItems rest

def readMembers : Members → Members
  | [] => []
  | (key, v) :: rest => (key, v.read) :: readMembers rest

end

/-- Each object has its members in key order. -/
inductive Value.Ordered : Value → Prop where
  | null : Ordered .null
  | bool (b : Bool) : Ordered (.bool b)
  | number (n : Int) : Ordered (.number n)
  | string (s : String) : Ordered (.string s)
  | array {items : List Value} (h : ∀ item ∈ items, item.Ordered) : Ordered (.array items)
  | object {members : Members} (ho : InKeyOrder members) (h : ∀ m ∈ members, m.2.Ordered) :
    Ordered (.object members)

theorem readItems_eq_map (items : List Value) : readItems items = items.map Value.read := by
  induction items with
  | nil => rfl
  | cons item rest ih => simp [readItems, ih]

theorem readMembers_eq_map (members : Members) :
    readMembers members = members.map fun m => (m.1, m.2.read) := by
  induction members with
  | nil => rfl
  | cons m rest ih => simp [readMembers, ih]

/-- A value that has its members in order is read as itself. -/
theorem Value.Ordered.read_eq {v : Value} (h : v.Ordered) : v.read = v := by
  induction h with
  | array _ ih =>
    rw [Value.read, readItems_eq_map, List.map_congr_left ih, List.map_id']
  | @object members ho _ ih =>
    have hm : readMembers members = members := by
      rw [readMembers_eq_map]
      exact (List.map_congr_left fun m hm => by rw [ih m hm]; rfl).trans (List.map_id members)
    rw [Value.read, hm, collect_of_inKeyOrder ho]
  | _ => rfl

def readValue : Reader Value := fun v => some v.read

def readUnit : Reader Unit
  | .null => some ()
  | _ => none

def readBool : Reader Bool
  | .bool b => some b
  | _ => none

def readString : Reader String
  | .string s => some s
  | _ => none

/-- An unsigned integer of the given width. -/
def readUInt (bits : Nat) : Reader Nat
  | .number (.ofNat n) => if n < 2 ^ bits then some n else none
  | _ => none

/-- `null` is `None`. -/
def readOption (read : Reader α) : Reader (Option α)
  | .null => some none
  | v => (read v).map some

def readList (read : Reader α) : Reader (List α)
  | .array items => items.mapM read
  | _ => none

def readMap (read : Reader α) : Reader (List (String × α))
  | .object members =>
    (members.mapM fun m => (read m.2).map fun value => (m.1, value)).map collect
  | _ => none

/-- An enum of variants without fields, by their names. -/
def readVariant (variants : List α) (name : α → String) : Reader α
  | .string s => variants.find? fun v => name v = s
  | _ => none

def writeUInt (n : Nat) : Value := .number (.ofNat n)

def writeOption (write : α → Value) : Option α → Value
  | none => .null
  | some a => write a

def writeList (write : α → Value) (items : List α) : Value := .array (items.map write)

def writeMap (write : α → Value) (entries : List (String × α)) : Value :=
  .object (entries.map fun entry => (entry.1, write entry.2))

variable {read : Reader α} {write : α → Value}

theorem readValue_of_ordered {v : Value} (h : v.Ordered) : readValue v = some v := by
  rw [readValue, h.read_eq]

@[simp] theorem readBool_bool (b : Bool) : readBool (.bool b) = some b := rfl

@[simp] theorem readString_string (s : String) : readString (.string s) = some s := rfl

theorem readUInt_write {bits n : Nat} (h : n < 2 ^ bits) :
    readUInt bits (writeUInt n) = some n := if_pos h

/-- An option comes back if its value does, and is not written as `null`. -/
theorem readOption_write {o : Option α} (h : ∀ a, o = some a → read (write a) = some a)
    (hn : ∀ a, o = some a → write a ≠ .null) :
    readOption read (writeOption write o) = some o := by
  cases o with
  | none => rfl
  | some a =>
    have hne := hn a rfl
    have ha := h a rfl
    simp only [writeOption]
    unfold readOption
    split
    · contradiction
    · rw [ha]; rfl

theorem mapM_map_eq_some {β : Type} {f : β → Option α} {g : α → β} {items : List α}
    (h : ∀ a ∈ items, f (g a) = some a) : (items.map g).mapM f = some items := by
  induction items with
  | nil => rfl
  | cons a rest ih =>
    rw [List.map_cons, List.mapM_cons, h a (by simp), ih fun b hb => h b (by simp [hb])]
    rfl

theorem readList_write {items : List α} (h : ∀ a ∈ items, read (write a) = some a) :
    readList read (writeList write items) = some items := mapM_map_eq_some h

theorem readMap_write {entries : List (String × α)} (ho : InKeyOrder entries)
    (h : ∀ entry ∈ entries, read (write entry.2) = some entry.2) :
    readMap read (writeMap write entries) = some entries := by
  have hm := mapM_map_eq_some (f := fun m : String × Value => (read m.2).map fun a => (m.1, a))
    (g := fun entry => (entry.1, write entry.2))
    fun entry (he : entry ∈ entries) => by simp [h entry he]
  rw [writeMap, readMap, hm, Option.map_some, collect_of_inKeyOrder ho]

/-- An optional text, which is never written as `null`. -/
@[simp] theorem readOption_string (o : Option String) :
    readOption readString (writeOption .string o) = some o :=
  readOption_write (fun _ _ => rfl) fun _ _ => by simp

@[simp] theorem readOption_bool (o : Option Bool) :
    readOption readBool (writeOption .bool o) = some o :=
  readOption_write (fun _ _ => rfl) fun _ _ => by simp

@[simp] theorem readList_string (items : List String) :
    readList readString (writeList .string items) = some items :=
  readList_write fun _ _ => rfl

/-- A variant comes back if it is in the list and no other there has its name. -/
theorem readVariant_name {variants : List α} {name : α → String} {a : α} (ha : a ∈ variants)
    (inj : ∀ b ∈ variants, name b = name a → b = a) :
    readVariant variants name (.string (name a)) = some a := by
  rw [readVariant]
  cases hf : variants.find? fun b => name b = name a with
  | none =>
    have hne := List.find?_eq_none.1 hf a ha
    simp at hne
  | some b =>
    have hb : name b = name a := by simpa using List.find?_some hf
    rw [inj b (List.mem_of_find?_eq_some hf) hb]

/-! ## The length of the text -/

/-- The bytes of a character in a JSON string. -/
def escapedSize (c : Char) : Nat :=
  if c.toNat ∈ [0x08, 0x09, 0x0a, 0x0c, 0x0d, 0x22, 0x5c] then 2
  else if c.toNat < 0x20 then 6
  else c.utf8Size

def stringSize (s : String) : Nat := 2 + (s.toList.map escapedSize).sum

def uintSize (n : Nat) : Nat := (Nat.toDigits 10 n).length

def intSize : Int → Nat
  | .ofNat n => uintSize n
  | .negSucc n => 1 + uintSize (n + 1)

mutual

/-- The bytes of a value as `serde_json::to_string` prints it. -/
def Value.size : Value → Nat
  | .null => 4
  | .bool b => if b then 4 else 5
  | .number n => intSize n
  | .string s => stringSize s
  | .array items => 2 + (items.length - 1) + itemsSize items
  | .object fields => 2 + (fields.length - 1) + membersSize fields

/-- The bytes of the items, without the commas between them. -/
def itemsSize : List Value → Nat
  | [] => 0
  | item :: rest => item.size + itemsSize rest

def membersSize : Members → Nat
  | [] => 0
  | (key, v) :: rest => stringSize key + 1 + v.size + membersSize rest

end

theorem itemsSize_eq_sum (items : List Value) : itemsSize items = (items.map Value.size).sum := by
  induction items with
  | nil => rfl
  | cons item rest ih => simp [itemsSize, ih]

/-! ## Structs and enums -/

/-- A struct, or the content of a variant with named fields. -/
def readStruct (fields : Members → Option α) : Reader α
  | .object ms => fields ms
  | _ => none

@[simp] theorem readStruct_object (fields : Members → Option α) (ms : Members) :
    readStruct fields (.object ms) = fields ms := rfl

/-- What the members give for a key. -/
def under (key : String) (ms : Members) : List Value :=
  (ms.filter fun m => m.1 = key).map Prod.snd

/-- The members under other keys. -/
def without (key : String) (ms : Members) : Members := ms.filter fun m => m.1 ≠ key

/-- A field of a struct; `missing` is what it is where it is not given. -/
def field (ms : Members) (key : String) (read : Reader α) (missing : Option α) : Option α :=
  match under key ms with
  | [] => missing
  | [v] => read v
  | _ => none

def required (ms : Members) (key : String) (read : Reader α) : Option α := field ms key read none

/-- A field of type `Option`. -/
def nullable (ms : Members) (key : String) (read : Reader α) : Option (Option α) :=
  field ms key (readOption read) (some none)

/-- A field with `#[serde(default)]`. -/
def defaulted (ms : Members) (key : String) (read : Reader α) (default : α) : Option α :=
  field ms key read (some default)

/-- An internally tagged enum: `variant` reads the other members. -/
def tagged (tag : String) (variant : String → Members → Option α) (ms : Members) : Option α := do
  variant (← required ms tag readString) (without tag ms)

/-- An adjacently tagged enum: `variant` reads the content, if it is given. -/
def adjacent (tag content : String) (variant : String → Option Value → Option α)
    (ms : Members) : Option α := do
  variant (← required ms tag readString) (← field ms content (fun v => some (some v)) (some none))

/-- No key is given twice. -/
def Distinct (ms : Members) : Prop := (ms.map Prod.fst).Nodup

theorem under_eq_nil {key : String} {ms : Members} (h : key ∉ ms.map Prod.fst) :
    under key ms = [] := by
  have hf : ms.filter (fun m => m.1 = key) = [] :=
    List.filter_eq_nil_iff.2 fun m hm he => h (List.mem_map.2 ⟨m, hm, by simpa using he⟩)
  rw [under, hf]; rfl

theorem under_cons (key k : String) (v : Value) (ms : Members) :
    under key ((k, v) :: ms) = if k = key then v :: under key ms else under key ms := by
  by_cases h : k = key <;> simp [under, h]

/-- A struct that gives no key twice is read member by member. -/
theorem field_eq_lookup {ms : Members} (h : Distinct ms) (key : String) (missing : Option α) :
    field ms key read missing = (ms.lookup key).elim missing read := by
  induction ms with
  | nil => rfl
  | cons m rest ih =>
    obtain ⟨k, v⟩ := m
    obtain ⟨hk, hrest⟩ := List.nodup_cons.1 h
    rw [field, under_cons, List.lookup_cons]
    by_cases he : k = key
    · subst he
      rw [if_pos rfl, under_eq_nil hk, beq_self_eq_true]
      rfl
    · rw [if_neg he, beq_false_of_ne (Ne.symm he)]
      exact ih hrest

theorem without_eq {key : String} {ms : Members} (h : key ∉ ms.map Prod.fst) :
    without key ms = ms :=
  List.filter_eq_self.2 fun m hm => by
    simpa using fun he : m.1 = key => h (List.mem_map.2 ⟨m, hm, he⟩)

/-- A key among members that do not have it. -/
theorem field_head {key : String} {v : Value} {ms : Members} {missing : Option α}
    (h : key ∉ ms.map Prod.fst) : field ((key, v) :: ms) key read missing = read v := by
  rw [field, under_cons, if_pos rfl, under_eq_nil h]

theorem without_head {key : String} {v : Value} {ms : Members} (h : key ∉ ms.map Prod.fst) :
    without key ((key, v) :: ms) = ms := by
  have hms := without_eq h
  simp only [without] at hms ⊢
  rw [List.filter_cons_of_neg (by simp), hms]

/-- The variant is found by its tag where none of its own fields has the tag's key. -/
theorem tagged_head {tag name : String} {variant : String → Members → Option α} {ms : Members}
    (h : tag ∉ ms.map Prod.fst) :
    tagged tag variant ((tag, .string name) :: ms) = variant name ms := by
  rw [tagged, required, field_head h, without_head h]
  rfl

theorem adjacent_unit {tag content name : String} {variant : String → Option Value → Option α}
    (h : tag ≠ content) :
    adjacent tag content variant [(tag, .string name)] = variant name none := by
  rw [adjacent, required, field_head (by simp), field, under_cons, if_neg h]
  rfl

theorem adjacent_content {tag content name : String} {v : Value}
    {variant : String → Option Value → Option α} (h : tag ≠ content) :
    adjacent tag content variant [(tag, .string name), (content, v)] = variant name (some v) := by
  rw [adjacent, required, field_head (by simpa using h), field, under_cons, if_neg h, under_cons,
    if_pos rfl]
  rfl

end Serde
