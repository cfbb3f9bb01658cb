import Mathlib.Data.List.Basic

/-!
# Configuration

`ProxyConfig::validate` of `crates/proxy/src/config.rs`: what a WebSocket endpoint may be
configured with. Of an accepted key the rest of the development uses that its characters
are letters, digits, `-` and `_` only (`ProxyConfig.validate_key`).
-/

namespace AgencyProxy

/-- `std::net::IpAddr`; an IPv6 address is its 128 bits. -/
inductive IpAddr where
  | v4 (a b c d : UInt8)
  | v6 (bits : BitVec 128)
deriving DecidableEq, Repr

def IpAddr.isLoopback : IpAddr → Bool
  | .v4 a _ _ _ => a == 127
  | .v6 bits => bits == 1

structure SocketAddr where
  ip : IpAddr
  port : UInt16
deriving DecidableEq, Repr

inductive ConnectionConfig where
  | unix (socket : String)
  | webSocket (address : SocketAddr) (authenticationKey : String) (allowedOrigins : List String)
deriving DecidableEq, Repr

structure ProxyConfig where
  connection : ConnectionConfig
deriving DecidableEq, Repr

/-- The errors of `validate`; those of reading and parsing the file are not among them. -/
inductive ConfigError where
  | nonLoopback (address : SocketAddr)
  | weakAuthenticationKey
  | invalidOrigin (origin : String)
deriving DecidableEq, Repr

def minAuthenticationKeyBytes : Nat := 32

/-- `str::bytes`: the UTF-8 bytes of a string. -/
def bytes (s : String) : List UInt8 := s.toList.flatMap String.utf8EncodeChar

/-- `u8::is_ascii_alphanumeric` -/
def isAsciiAlphanumeric (byte : UInt8) : Bool :=
  (48 ≤ byte && byte ≤ 57) || (65 ≤ byte && byte ≤ 90) || (97 ≤ byte && byte ≤ 122)

/-- A byte that a key may hold; 45 is `-` and 95 is `_`. -/
def isKeyByte (byte : UInt8) : Bool :=
  isAsciiAlphanumeric byte || byte == 45 || byte == 95

theorem isKeyByte_lt {byte : UInt8} (h : isKeyByte byte) : byte.toNat < 128 := by
  simp only [isKeyByte, isAsciiAlphanumeric, Bool.or_eq_true, Bool.and_eq_true,
    decide_eq_true_eq, beq_iff_eq, UInt8.le_iff_toNat_le, ← UInt8.toNat_inj] at h
  simp only [UInt8.reduceToNat] at h
  omega

namespace ConfigError

/-- The error as `main` prints it; `shown` is the standard library's text of an address. -/
def text (shown : SocketAddr → String) : ConfigError → String
  | .nonLoopback address => "WebSocket address must be loopback, got " ++ shown address
  | .weakAuthenticationKey =>
    "WebSocket authentication key must contain at least "
      ++ toString minAuthenticationKeyBytes ++ " URL-safe characters"
  | .invalidOrigin origin =>
    "allowed WebSocket origins must begin with http:// or https://, got " ++ origin

end ConfigError

namespace ProxyConfig

def validate (config : ProxyConfig) : Except ConfigError Unit :=
  match config.connection with
  | .unix _ => .ok ()
  | .webSocket address authenticationKey allowedOrigins =>
    if !address.ip.isLoopback then .error (.nonLoopback address)
    else if decide ((bytes authenticationKey).length < minAuthenticationKeyBytes)
        || !(bytes authenticationKey).all isKeyByte then
      .error .weakAuthenticationKey
    else
      match allowedOrigins.find? fun origin =>
          !("https://".isPrefixOf origin || "http://".isPrefixOf origin) with
      | some origin => .error (.invalidOrigin origin)
      | none => .ok ()

/-- Refusals come in the order of the checks; what passes all three is accepted. -/
theorem validate_webSocket_iff {address : SocketAddr} {key : String} {origins : List String} :
    validate ⟨.webSocket address key origins⟩ = .ok () ↔
      address.ip.isLoopback ∧ minAuthenticationKeyBytes ≤ (bytes key).length ∧
        (∀ byte ∈ bytes key, isKeyByte byte) ∧
        ∀ origin ∈ origins, "https://".isPrefixOf origin ∨ "http://".isPrefixOf origin := by
  unfold validate
  by_cases hip : address.ip.isLoopback
  · by_cases hlen : (bytes key).length < minAuthenticationKeyBytes
    · simp [hip, hlen, Nat.not_le.mpr hlen]
    · by_cases hkey : (bytes key).all isKeyByte
      · cases hfind : origins.find? fun origin =>
          !("https://".isPrefixOf origin || "http://".isPrefixOf origin) with
        | some origin =>
          have hmem := List.mem_of_find?_eq_some hfind
          have hbad := List.find?_some hfind
          simp only [Bool.not_or, Bool.and_eq_true, Bool.not_eq_eq_eq_not, Bool.not_true] at hbad
          simp only [hip, hlen, hkey, hfind, Bool.not_true, Bool.false_eq_true, if_false,
            decide_false, Bool.or_false, reduceCtorEq, false_iff]
          rintro ⟨-, -, -, hall⟩
          simpa [hbad] using hall origin hmem
        | none =>
          have hgood := List.find?_eq_none.mp hfind
          simp only [hip, hlen, hkey, hfind, Bool.not_true, Bool.false_eq_true, if_false,
            decide_false, Bool.or_false, true_iff]
          refine ⟨trivial, Nat.le_of_not_lt hlen, List.all_eq_true.mp hkey, fun origin h => ?_⟩
          have := hgood origin h
          cases hs : "https://".isPrefixOf origin with
          | true => exact .inl rfl
          | false => exact .inr (by simpa [hs] using this)
      · have hbad : ¬ ∀ byte ∈ bytes key, isKeyByte byte := fun h => hkey (List.all_eq_true.mpr h)
        simp [hip, hlen, hkey, hbad]
  · simp [hip]

/-- A character beyond 127 has a continuation byte, which a key may not hold. -/
theorem isKeyByte_of_encode {c : Char} (h : ∀ byte ∈ String.utf8EncodeChar c, isKeyByte byte) :
    c.toNat ≤ 127 ∧ isKeyByte (UInt8.ofNat c.toNat) := by
  have hcont : ∀ n, ¬ isKeyByte (UInt8.ofNat (n % 64 + 128)) := by
    intro n hkey
    have hlt := isKeyByte_lt hkey
    rw [UInt8.toNat_ofNat'] at hlt
    omega
  by_cases hsmall : c.val.toNat ≤ 127
  · refine ⟨hsmall, h _ ?_⟩
    simp only [String.utf8EncodeChar, if_pos hsmall, List.mem_singleton]
    rfl
  · refine absurd (h (UInt8.ofNat (c.val.toNat % 64 + 128)) ?_) (hcont _)
    simp only [String.utf8EncodeChar, if_neg hsmall]
    split
    · simp
    · split <;> simp

/-- **The characters of an accepted key.** -/
theorem validate_key {address : SocketAddr} {key : String} {origins : List String}
    (h : validate ⟨.webSocket address key origins⟩ = .ok ()) {c : Char} (hc : c ∈ key.toList) :
    c.toNat ≤ 127 ∧ isKeyByte (UInt8.ofNat c.toNat) := by
  obtain ⟨-, -, hbytes, -⟩ := validate_webSocket_iff.mp h
  exact isKeyByte_of_encode fun byte hbyte => hbytes byte (List.mem_flatMap.mpr ⟨c, hc, hbyte⟩)

end ProxyConfig

end AgencyProxy
