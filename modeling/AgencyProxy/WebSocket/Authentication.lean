import AgencyProxy.Config
import Mathlib.Data.List.DropRight

/-!
# Authentication of WebSocket connections

`Authentication::auth` of `crates/proxy/src/web.rs`. A browser offers its subprotocols in one
header, joined by commas; the key travels as one of them. The header is cut at its commas and
each piece trimmed, so what a piece is worth depends on its token alone (`trim_offer`). That
the endpoint's own token survives both is a fact about the keys that `validate` accepts
(`trim_protocol`, `comma_not_mem_protocol`).
-/

namespace AgencyProxy.WebSocket

/-! ## Cutting and trimming -/

/-- `char::is_whitespace`: the characters with Unicode's `White_Space` property. -/
def isWhitespace (c : Char) : Bool :=
  let n := c.toNat
  (9 ≤ n && n ≤ 13) || n == 0x20 || n == 0x85 || n == 0xA0 || n == 0x1680
    || (0x2000 ≤ n && n ≤ 0x200A) || n == 0x2028 || n == 0x2029 || n == 0x202F || n == 0x205F
    || n == 0x3000

/-- `str::trim` -/
def trim (s : String) : String :=
  String.ofList ((s.toList.dropWhile isWhitespace).rdropWhile isWhitespace)

/-- `str::split(',')` -/
def splitCommas (s : String) : List String := (s.toList.splitOn ',').map String.ofList

/-- White space around a string does not change what is left of it. -/
theorem trim_pad {left right : String} (hleft : ∀ c ∈ left.toList, isWhitespace c)
    (hright : ∀ c ∈ right.toList, isWhitespace c) (s : String) :
    trim (left ++ s ++ right) = trim s := by
  have hend : ∀ l : List Char,
      (l ++ right.toList).rdropWhile isWhitespace = l.rdropWhile isWhitespace := by
    intro l
    simp only [List.rdropWhile, List.reverse_append]
    rw [List.dropWhile_append_of_pos (by simpa using hright)]
  simp only [trim, String.toList_append]
  rw [List.append_assoc, List.dropWhile_append_of_pos hleft, List.dropWhile_append]
  split
  · -- the string is white space, and so is what follows it
    next hblank =>
    rw [List.dropWhile_eq_nil_iff.mpr hright, List.isEmpty_iff.mp hblank]
  · rw [hend]

theorem trim_eq_self {s : String} (h : ∀ c ∈ s.toList, ¬ isWhitespace c) : trim s = s := by
  have hfront : s.toList.dropWhile isWhitespace = s.toList :=
    List.dropWhile_eq_self_iff.mpr fun hl => h _ (List.getElem_mem hl)
  have hback : s.toList.rdropWhile isWhitespace = s.toList :=
    List.rdropWhile_eq_self_iff.mpr fun hl => h _ (List.getLast_mem hl)
  rw [trim, hfront, hback, String.ofList_toList]

theorem comma_not_mem_of_blank {s : String} (h : ∀ c ∈ s.toList, isWhitespace c) :
    ',' ∉ s.toList := by
  intro hmem
  exact absurd (h ',' hmem) (by decide)

/-- Cutting at commas undoes the joining of pieces that hold none. -/
theorem splitCommas_intercalate {pieces : List String} (hne : pieces ≠ [])
    (hcomma : ∀ piece ∈ pieces, ',' ∉ piece.toList) :
    splitCommas (",".intercalate pieces) = pieces := by
  have hlists : ∀ l ∈ pieces.map String.toList, ',' ∉ l := by
    intro l hl
    obtain ⟨piece, hpiece, rfl⟩ := List.mem_map.mp hl
    exact hcomma piece hpiece
  rw [splitCommas, String.toList_intercalate]
  show (List.splitOn ',' (List.intercalate [','] _)).map _ = _
  rw [List.splitOn_intercalate _ hlists (by simpa using hne)]
  simp

/-! ## Offers -/

/-- An offered token as a client may write it: no comma in it, white space around it. -/
structure Offer where
  left : String
  token : String
  right : String
  left_blank : ∀ c ∈ left.toList, isWhitespace c
  no_comma : ',' ∉ token.toList
  right_blank : ∀ c ∈ right.toList, isWhitespace c

namespace Offer

def text (offer : Offer) : String := offer.left ++ offer.token ++ offer.right

theorem trim_text (offer : Offer) : trim offer.text = trim offer.token :=
  trim_pad offer.left_blank offer.right_blank offer.token

theorem comma_not_mem_text (offer : Offer) : ',' ∉ offer.text.toList := by
  simp only [text, String.toList_append, List.mem_append, not_or]
  exact ⟨⟨comma_not_mem_of_blank offer.left_blank, offer.no_comma⟩,
    comma_not_mem_of_blank offer.right_blank⟩

end Offer

/-- The header that a list of offers is sent as. -/
def header (offers : List Offer) : String := ",".intercalate (offers.map Offer.text)

/-- What `auth` compares: the trimmed tokens, or one empty piece where nothing is offered. -/
theorem pieces_header (offers : List Offer) :
    (splitCommas (header offers)).map trim =
      if offers = [] then [""] else offers.map fun offer => trim offer.token := by
  by_cases hne : offers = []
  · subst hne
    decide +kernel
  · rw [header, splitCommas_intercalate (by simpa using hne), if_neg hne, List.map_map]
    · exact List.map_congr_left fun offer _ => offer.trim_text
    · intro piece hpiece
      obtain ⟨offer, -, rfl⟩ := List.mem_map.mp hpiece
      exact offer.comma_not_mem_text

/-! ## The check -/

def authenticatedRole : UInt32 := 1

/-- What `auth` writes of endpoint-libs' `WsConnection`. -/
structure WsConnection where
  roles : List UInt32
deriving DecidableEq, Repr

structure Authentication where
  protocol : String

/-- `auth`: the answer, and the connection it leaves. -/
def Authentication.auth (authentication : Authentication) (header : String)
    (connection : WsConnection) : Except String Unit × WsConnection :=
  let authenticated := ((splitCommas header).map trim).any (· == authentication.protocol)
  if !authenticated then (.error "AgencyProxy authentication failed", connection)
  else (.ok (), { connection with roles := [authenticatedRole] })

/-- The controller that `listen_websocket` sets for a key. -/
def Authentication.new (authenticationKey : String) : Authentication where
  protocol := "agency-proxy." ++ authenticationKey

namespace Authentication

theorem new_protocol_ne_empty (key : String) : (new key).protocol ≠ "" := by
  intro h
  have hlist := congrArg String.toList h
  simp [new] at hlist

/-- The answer and the role go together, whatever the header is. -/
theorem auth_cases (authentication : Authentication) (header : String)
    (connection : WsConnection) :
    (authentication.protocol ∈ (splitCommas header).map trim ∧
      authentication.auth header connection = (.ok (), ⟨[authenticatedRole]⟩)) ∨
    (authentication.protocol ∉ (splitCommas header).map trim ∧
      authentication.auth header connection =
        (.error "AgencyProxy authentication failed", connection)) := by
  by_cases hmem : authentication.protocol ∈ (splitCommas header).map trim
  · have hany : ((splitCommas header).map trim).any (· == authentication.protocol) :=
      List.any_eq_true.mpr ⟨_, hmem, beq_self_eq_true _⟩
    exact .inl ⟨hmem, by simp only [auth, hany, Bool.not_true, Bool.false_eq_true, if_false]⟩
  · have hany : ((splitCommas header).map trim).any (· == authentication.protocol) = false := by
      rw [List.any_eq_false]
      rintro piece hpiece heq
      exact hmem (eq_of_beq heq ▸ hpiece)
    exact .inr ⟨hmem, by simp only [auth, hany, Bool.not_false, if_true]⟩

theorem auth_ok_iff {authentication : Authentication} {header : String}
    {connection : WsConnection} :
    (authentication.auth header connection).1 = .ok () ↔
      authentication.protocol ∈ (splitCommas header).map trim := by
  obtain ⟨hmem, heq⟩ | ⟨hmem, heq⟩ := authentication.auth_cases header connection
  · simp only [heq, hmem]
  · simp only [heq, hmem, reduceCtorEq]

/-- The endpoint's token is in the header exactly if it is offered, white space aside. -/
theorem protocol_mem_pieces (key : String) (offers : List Offer) :
    (new key).protocol ∈ (splitCommas (header offers)).map trim ↔
      ∃ offer ∈ offers, trim offer.token = (new key).protocol := by
  rw [pieces_header]
  by_cases hne : offers = []
  · simp [hne, new_protocol_ne_empty]
  · rw [if_neg hne]
    exact List.mem_map

/-! ## The endpoint's own token -/

/-- A character that a key may hold is not the separator and not white space. -/
theorem key_char {c : Char} (hsmall : c.toNat ≤ 127) (hkey : isKeyByte (UInt8.ofNat c.toNat)) :
    c ≠ ',' ∧ ¬ isWhitespace c := by
  have hnot : ∀ n ≤ 127, isKeyByte (UInt8.ofNat n) → n ≠ 44 ∧ n ≠ 32 ∧ ¬ (9 ≤ n ∧ n ≤ 13) := by
    decide +kernel
  obtain ⟨hcomma, hspace, hcontrol⟩ := hnot c.toNat hsmall hkey
  refine ⟨?_, ?_⟩
  · rintro rfl
    exact hcomma rfl
  · simp only [isWhitespace, Bool.or_eq_true, Bool.and_eq_true, decide_eq_true_eq, beq_iff_eq]
    omega

section

variable {address : SocketAddr} {key : String} {origins : List String}

theorem protocol_char (hvalid : ProxyConfig.validate ⟨.webSocket address key origins⟩ = .ok ())
    {c : Char} (hc : c ∈ (new key).protocol.toList) : c ≠ ',' ∧ ¬ isWhitespace c := by
  simp only [new, String.toList_append, List.mem_append] at hc
  obtain hc | hc := hc
  · have hprefix : "agency-proxy.".toList.all fun c => c ≠ ',' ∧ ¬ isWhitespace c := by
      decide +kernel
    simpa using List.all_eq_true.mp hprefix c hc
  · obtain ⟨hsmall, hkey⟩ := ProxyConfig.validate_key hvalid hc
    exact key_char hsmall hkey

theorem comma_not_mem_protocol
    (hvalid : ProxyConfig.validate ⟨.webSocket address key origins⟩ = .ok ()) :
    ',' ∉ (new key).protocol.toList :=
  fun hmem => (protocol_char hvalid hmem).1 rfl

theorem trim_protocol
    (hvalid : ProxyConfig.validate ⟨.webSocket address key origins⟩ = .ok ()) :
    trim (new key).protocol = (new key).protocol :=
  trim_eq_self fun _ hc => (protocol_char hvalid hc).2

/-- **Authentication accepts exactly the key holder.** Under an accepted configuration a
connection is authenticated, and given the role, if and only if one of the tokens it offers is
the endpoint's own; the token is accepted in any place, among any others and with any white
space around it, and a header with the same standing on it gets the same answer. -/
theorem auth_iff_offered
    (hvalid : ProxyConfig.validate ⟨.webSocket address key origins⟩ = .ok ())
    (offers : List Offer) (connection : WsConnection) :
    let protocol := "agency-proxy." ++ key
    let answer := (new key).auth (header offers) connection
    (answer.1 = .ok () ↔ ∃ offer ∈ offers, trim offer.token = protocol) ∧
    (answer.1 = .ok () → answer.2 = { connection with roles := [authenticatedRole] }) ∧
    (answer.1 ≠ .ok () → answer.2 = connection) ∧
    (∀ before after : List Offer, ∀ left right : String,
      (∀ c ∈ left.toList, isWhitespace c) → (∀ c ∈ right.toList, isWhitespace c) →
      ((new key).auth (",".intercalate (before.map Offer.text ++
        (left ++ protocol ++ right) :: after.map Offer.text)) connection).1 = .ok ()) ∧
    (∀ others : List Offer,
      ((∃ offer ∈ others, trim offer.token = protocol) ↔
        ∃ offer ∈ offers, trim offer.token = protocol) →
      (new key).auth (header others) connection = answer) := by
  intro protocol answer
  have hmem := protocol_mem_pieces key
  refine ⟨auth_ok_iff.trans (hmem offers), ?_, ?_, ?_, ?_⟩
  · intro hok
    obtain ⟨-, heq⟩ | ⟨hnot, -⟩ := (new key).auth_cases (header offers) connection
    · exact congrArg Prod.snd heq
    · exact absurd (auth_ok_iff.mp hok) hnot
  · intro hbad
    obtain ⟨hin, -⟩ | ⟨-, heq⟩ := (new key).auth_cases (header offers) connection
    · exact absurd (auth_ok_iff.mpr hin) hbad
    · exact congrArg Prod.snd heq
  · intro before after left right hleft hright
    let own : Offer :=
      { left, token := protocol, right, left_blank := hleft,
        no_comma := comma_not_mem_protocol hvalid, right_blank := hright }
    have hheader : before.map Offer.text ++ (left ++ protocol ++ right) :: after.map Offer.text =
        (before ++ own :: after).map Offer.text := by
      simp [own, Offer.text]
    rw [hheader]
    refine auth_ok_iff.mpr ((hmem (before ++ own :: after)).mpr ⟨own, by simp, ?_⟩)
    exact trim_protocol hvalid
  · intro others hsame
    obtain ⟨hin, heq⟩ | ⟨hnot, heq⟩ := (new key).auth_cases (header offers) connection
    · obtain ⟨-, heq'⟩ | ⟨hnot', -⟩ := (new key).auth_cases (header others) connection
      · exact heq'.trans heq.symm
      · exact absurd ((hmem others).mpr (hsame.mpr ((hmem offers).mp hin))) hnot'
    · obtain ⟨hin', -⟩ | ⟨-, heq'⟩ := (new key).auth_cases (header others) connection
      · exact absurd ((hmem offers).mpr (hsame.mp ((hmem others).mp hin'))) hnot
      · exact heq'.trans heq.symm

end

/-- The key of the source's own tests. -/
def testKey : String := "0123456789abcdef0123456789abcdef"

/-- The endpoint's token, offered second and with white space around it. -/
def ownOffer : Offer where
  left := " "
  token := "agency-proxy." ++ testKey
  right := "\t"
  left_blank := List.all_eq_true.mp (by decide +kernel)
  no_comma := by decide +kernel
  right_blank := List.all_eq_true.mp (by decide +kernel)

def otherOffer : Offer where
  left := ""
  token := "mcp"
  right := ""
  left_blank := List.all_eq_true.mp (by decide +kernel)
  no_comma := by decide +kernel
  right_blank := List.all_eq_true.mp (by decide +kernel)

theorem auth_iff_offered_second :
    ProxyConfig.validate ⟨.webSocket ⟨.v4 127 0 0 1, 17820⟩ testKey []⟩ = .ok () ∧
      ((new testKey).auth (header [otherOffer, ownOffer]) ⟨[]⟩).1 = .ok () ∧
      ¬ ((new testKey).auth (header [otherOffer]) ⟨[]⟩).1 = .ok () := by
  have hvalid : ProxyConfig.validate ⟨.webSocket ⟨.v4 127 0 0 1, 17820⟩ testKey []⟩ = .ok () := by
    decide +kernel
  refine ⟨hvalid, ?_, ?_⟩
  · exact (auth_iff_offered hvalid [otherOffer, ownOffer] ⟨[]⟩).1.mpr
      ⟨ownOffer, by simp, by decide +kernel⟩
  · rw [(auth_iff_offered hvalid [otherOffer] ⟨[]⟩).1]
    decide +kernel

end Authentication

end AgencyProxy.WebSocket
