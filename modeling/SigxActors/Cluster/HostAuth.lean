/-
  Cluster/HostAuth.lean --- the signature of a call between hosts.

  Source: `packages/actors/src/cluster/envelope.ts`, `packages/actors/src/timing-safe.ts`.

  What is signed is four texts, joined by line feeds.  A symbol and a call id may hold
  line feeds of their own, so a header says which line is which only where the two
  texts together tell.
-/
import Mathlib.Data.Nat.Bitwise
import SigxActors.Cluster.Envelope
import SigxActors.Codec.WirePath

set_option autoImplicit false

namespace SigxActors.Cluster

open SigxActors.Js
open SigxActors.Codec

/-! ## Comparing secrets -/

/-- `text.charCodeAt(i) || 0`. -/
def charCodeOrZero (text : Text) (i : Nat) : Nat := (text[i]?.map UInt16.toNat).getD 0

/-- `timingSafeEquals`. -/
def timingSafeEquals (a b : Text) : Bool :=
  (List.range (max a.length b.length)).foldl
    (fun mismatch i => mismatch ||| (charCodeOrZero a i ^^^ charCodeOrZero b i))
    (a.length ^^^ b.length) == 0

theorem foldl_or_eq_zero {f : Nat → Nat} (l : List Nat) (n : Nat) :
    l.foldl (fun mismatch i => mismatch ||| f i) n = 0 ↔ n = 0 ∧ ∀ i ∈ l, f i = 0 := by
  induction l generalizing n with
  | nil => simp
  | cons i l ih => rw [List.foldl_cons, ih, Nat.or_eq_zero_iff, List.forall_mem_cons, and_assoc]

theorem timingSafeEquals_iff {a b : Text} : timingSafeEquals a b = true ↔ a = b := by
  rw [timingSafeEquals, beq_iff_eq, foldl_or_eq_zero, Nat.xor_eq_zero_iff]
  constructor
  · rintro ⟨hlength, hunits⟩
    refine List.ext_getElem hlength fun i ha hb => ?_
    have hunit := Nat.xor_eq_zero_iff.1 (hunits i (List.mem_range.2 (lt_max_of_lt_left ha)))
    rw [charCodeOrZero, charCodeOrZero, List.getElem?_eq_getElem ha,
      List.getElem?_eq_getElem hb] at hunit
    exact UInt16.toNat_inj.1 hunit
  · rintro rfl
    exact ⟨rfl, fun _ _ => Nat.xor_self _⟩

/-! ## Signing -/

/-- `toHex`. -/
def toHex (bytes : Bytes) : Text :=
  bytes.flatMap fun b => [hexDigit (b.toNat / 0x10), hexDigit (b.toNat % 0x10)]

/-- `webCryptoHmac.hex`, of whatever keyed hash. -/
def hmacHex (hmac : Bytes → Bytes → Bytes) (secret message : Text) : Text :=
  toHex (hmac (encode secret) (encode message))

/-- A line feed. -/
def lineFeed : UInt16 := 0x0A

/-- `.`. -/
def dot : UInt16 := 0x2E

/-- `authMessage`. -/
def authMessage (symbol callId : Text) (timestamp : Nat) : Text :=
  decimalText hostProto ++ lineFeed :: (symbol ++ lineFeed :: (callId ++ lineFeed ::
    decimalText timestamp))

/-- `signAuthWith`, by a clock that reads `now`. -/
def signAuthWith (hmac : Bytes → Bytes → Bytes) (secret : Text) (now : Nat)
    (symbol callId : Text) : Text :=
  spell ['v', '1'] ++ dot :: (decimalText now ++ dot ::
    hmacHex hmac secret (authMessage symbol callId now))

/-! ## Verifying -/

/-- `AUTH_WINDOW_MS`. -/
def authWindowMs : Nat := 5 * 60000

/-- The clocks are no further apart than the window. -/
def WithinWindow (t t' : Nat) : Prop := ((t' : Int) - t).natAbs ≤ authWindowMs

instance (t t' : Nat) : Decidable (WithinWindow t t') := inferInstanceAs (Decidable (_ ≤ _))

/-- `verifyAuthWith`, by a clock that reads `now`. -/
def verifyAuthWith (hmac : Bytes → Bytes → Bytes) (secret : Text) (now : Nat)
    (header : Option Text) (symbol callId : Text) : Bool :=
  match header with
  | none => false
  | some header =>
      match header.splitOn dot with
      | [version, timestampRaw, signature] =>
          let timestamp := ofDecimal timestampRaw
          version == spell ['v', '1'] &&
            (timestampRaw.all isDigit && 1 ≤ timestampRaw.length && timestampRaw.length ≤ 15) &&
            (signature.all isLowerHex && signature.length == 64) &&
            timestamp < 2 ^ 53 && WithinWindow timestamp now &&
            timingSafeEquals signature (hmacHex hmac secret (authMessage symbol callId timestamp))
      | _ => false

/-! ## What is signed -/

variable {symbol callId symbol' callId' : Text} {t t' : Nat}

theorem encode_append_lineFeed (a b : Text) :
    encode (a ++ lineFeed :: b) = encode a ++ 0x0A :: encode b := by
  have hscalars : scalars (a ++ lineFeed :: b) = scalars a ++ 0x0A :: scalars b := by
    have hfeed : scalars (lineFeed :: b) = 0x0A :: scalars b := by
      rw [scalars_cons (by decide), if_neg (by decide)]
      rfl
    induction a using scalars.induct with
    | case1 => exact hfeed
    | case2 u hlead v rest htrail ih =>
      rw [List.cons_append, List.cons_append, scalars_pair hlead htrail, ih,
        scalars_pair hlead htrail, List.cons_append]
    | case3 u hlead v rest htrail ih =>
      rw [List.cons_append] at ih
      rw [List.cons_append, List.cons_append, scalars, if_pos hlead]
      rw [ih, scalars, if_pos hlead]
      simp only [if_neg htrail, List.cons_append]
    | case4 u hlead =>
      rw [List.singleton_append, scalars, if_pos hlead]
      rw [hfeed, scalars, if_pos hlead]
      rfl
    | case5 u rest hlead htrail ih =>
      rw [List.cons_append, scalars_cons hlead, ih, scalars_cons hlead, List.cons_append]
    | case6 u rest hlead htrail ih =>
      rw [List.cons_append, scalars_cons hlead, ih, scalars_cons hlead, List.cons_append]
  rw [encode, hscalars, List.flatMap_append, List.flatMap_cons]
  rfl

/-- Messages of one time have the same bytes where the two lines in their middle do. -/
theorem encode_authMessage_inj :
    encode (authMessage symbol callId t) = encode (authMessage symbol' callId' t) ↔
      encode (symbol ++ lineFeed :: callId) = encode (symbol' ++ lineFeed :: callId') := by
  have hsplit : ∀ symbol callId : Text, encode (authMessage symbol callId t) =
      encode (decimalText hostProto) ++
        0x0A :: (encode (symbol ++ lineFeed :: callId) ++ 0x0A :: encode (decimalText t)) := by
    intro symbol callId
    have hlines : symbol ++ lineFeed :: (callId ++ lineFeed :: decimalText t) =
        (symbol ++ lineFeed :: callId) ++ lineFeed :: decimalText t := by
      rw [List.append_assoc, List.cons_append]
    rw [authMessage, encode_append_lineFeed, hlines, encode_append_lineFeed]
  rw [hsplit, hsplit]
  constructor
  · intro h
    exact List.append_cancel_right (List.cons.inj (List.append_cancel_left h)).2
  · intro h
    rw [h]

/-! ## What the grammar of a header admits -/

theorem length_decimalText_le (k n : Nat) : (decimalText n).length ≤ k + 1 ↔ n < 10 ^ (k + 1) := by
  induction k generalizing n with
  | zero =>
    rw [decimalText]
    split
    · simp_all
    have hpos : 0 < (decimalText (n / 10)).length := by
      rw [decimalText]
      split <;> simp
    rw [List.length_append]
    simp only [List.length_singleton]
    omega
  | succ k ih =>
    rw [decimalText]
    split
    · have hpow : 10 ≤ 10 ^ (k + 1 + 1) := Nat.le_self_pow (by omega) 10
      simp only [List.length_singleton]
      omega
    · have htenth := ih (n / 10)
      rw [List.length_append, Nat.pow_succ]
      simp only [List.length_singleton]
      omega

theorem isLowerHex_hexDigit : ∀ n < 16, isLowerHex (hexDigit n) = true := by decide

theorem hexDigit_inj : ∀ m < 16, ∀ n < 16, hexDigit m = hexDigit n → m = n := by decide

theorem length_toHex (bytes : Bytes) : (toHex bytes).length = 2 * bytes.length := by
  induction bytes with
  | nil => rfl
  | cons b bytes ih =>
    rw [toHex, List.flatMap_cons, List.length_append, ← toHex, ih, List.length_cons]
    simp only [List.length_cons, List.length_nil]
    omega

theorem isLowerHex_toHex (bytes : Bytes) : ∀ u ∈ toHex bytes, isLowerHex u = true := by
  intro u hu
  obtain ⟨b, -, hu⟩ := List.mem_flatMap.1 hu
  have hb := b.toNat_lt
  rw [List.mem_cons, List.mem_singleton] at hu
  rcases hu with rfl | rfl
  · exact isLowerHex_hexDigit _ (by omega)
  · exact isLowerHex_hexDigit _ (by omega)

theorem toHex_inj {a b : Bytes} (h : toHex a = toHex b) : a = b := by
  induction a generalizing b with
  | nil =>
    cases b with
    | nil => rfl
    | cons => cases h
  | cons x a ih =>
    cases b with
    | nil => cases h
    | cons y b =>
      simp only [toHex, List.flatMap_cons, List.cons_append, List.nil_append, List.cons.injEq] at h
      obtain ⟨hhigh, hlow, hrest⟩ := h
      have hx := x.toNat_lt
      have hy := y.toNat_lt
      have hdiv := hexDigit_inj _ (by omega) _ (by omega) hhigh
      have hmod := hexDigit_inj _ (by omega) _ (by omega) hlow
      rw [ih hrest, UInt8.toNat_inj.1 (by omega : x.toNat = y.toNat)]

theorem dot_notMem {text : Text} (h : ∀ u ∈ text, isLowerHex u = true) : dot ∉ text :=
  fun hdot => absurd (h dot hdot) (by decide)

/-! ## The binding -/

variable {hmac : Bytes → Bytes → Bytes} {secret : Text}

/-- What a signed header is read as. -/
theorem splitOn_signAuthWith : (signAuthWith hmac secret t symbol callId).splitOn dot =
    [spell ['v', '1'], decimalText t, hmacHex hmac secret (authMessage symbol callId t)] := by
  have hdigits : dot ∉ decimalText t := fun hdot =>
    absurd (isDigit_decimalText t dot hdot) (by decide)
  have hhex : dot ∉ hmacHex hmac secret (authMessage symbol callId t) :=
    dot_notMem (isLowerHex_toHex _)
  rw [signAuthWith, List.splitOn_append_cons_self, List.splitOn_append_cons_self,
    List.splitOn_eq_singleton hdigits, List.splitOn_eq_singleton hhex,
    List.splitOn_eq_singleton (by decide)]
  rfl

/-- The keyed hash tells two messages apart. -/
def NoCollision (hmac : Bytes → Bytes → Bytes) (secret message message' : Text) : Prop :=
  hmac (encode secret) (encode message) = hmac (encode secret) (encode message') →
    encode message = encode message'

/-- When a header is accepted: for a time of fifteen digits, inside the window, and for
the lines that were signed. -/
theorem verifyAuthWith_signAuthWith (hlength : ∀ key message, (hmac key message).length = 32)
    (hideal : NoCollision hmac secret (authMessage symbol callId t) (authMessage symbol' callId' t)) :
    verifyAuthWith hmac secret t' (some (signAuthWith hmac secret t symbol callId)) symbol' callId' =
        true ↔
      t < 10 ^ 15 ∧ WithinWindow t t' ∧
        encode (symbol ++ lineFeed :: callId) = encode (symbol' ++ lineFeed :: callId') := by
  have hpos : 1 ≤ (decimalText t).length := by
    rw [decimalText]
    split <;> simp
  have hall : (decimalText t).all isDigit = true := List.all_eq_true.2 (isDigit_decimalText t)
  have hhex : (hmacHex hmac secret (authMessage symbol callId t)).all isLowerHex = true :=
    List.all_eq_true.2 (isLowerHex_toHex _)
  have hsize : (hmacHex hmac secret (authMessage symbol callId t)).length = 64 := by
    rw [hmacHex, length_toHex, hlength]
  have hsame : hmacHex hmac secret (authMessage symbol callId t) =
      hmacHex hmac secret (authMessage symbol' callId' t) ↔
      encode (symbol ++ lineFeed :: callId) = encode (symbol' ++ lineFeed :: callId') := by
    rw [← encode_authMessage_inj (t := t)]
    exact ⟨fun heq => hideal (toHex_inj heq), fun heq => by rw [hmacHex, hmacHex, heq]⟩
  simp only [verifyAuthWith, splitOn_signAuthWith, ofDecimal_decimalText, hall, hhex, hsize, hpos,
    Bool.and_eq_true, decide_eq_true_eq, beq_self_eq_true, true_and, and_true,
    timingSafeEquals_iff, hsame, length_decimalText_le 14]
  constructor
  · rintro ⟨⟨⟨hdigits, -⟩, hwithin⟩, hlines⟩
    exact ⟨hdigits, hwithin, hlines⟩
  · rintro ⟨hdigits, hwithin, hlines⟩
    exact ⟨⟨⟨hdigits, by omega⟩, hwithin⟩, hlines⟩

/-- A header that was signed for one call at `t` is accepted for another at `t'` exactly
where the calls are the same and the clocks within the window. -/
def Binds (hmac : Bytes → Bytes → Bytes) (secret symbol callId symbol' callId' : Text)
    (t t' : Nat) : Prop :=
  verifyAuthWith hmac secret t' (some (signAuthWith hmac secret t symbol callId)) symbol' callId' =
      true ↔ symbol' = symbol ∧ callId' = callId ∧ WithinWindow t t'

/-- Two calls whose lines run together are the same. -/
def Separate (symbol callId symbol' callId' : Text) : Prop :=
  encode (symbol ++ lineFeed :: callId) = encode (symbol' ++ lineFeed :: callId') →
    symbol' = symbol ∧ callId' = callId

theorem auth_binds_iff (hlength : ∀ key message, (hmac key message).length = 32)
    (hideal : NoCollision hmac secret (authMessage symbol callId t) (authMessage symbol' callId' t)) :
    Binds hmac secret symbol callId symbol' callId' t t' ↔
      (WithinWindow t t' → if t < 10 ^ 15 then Separate symbol callId symbol' callId'
        else ¬ (symbol' = symbol ∧ callId' = callId)) := by
  rw [Binds, verifyAuthWith_signAuthWith hlength hideal]
  constructor
  · intro h hwithin
    split
    · rename_i hdated
      intro hlines
      obtain ⟨hsymbol, hcallId, -⟩ := h.1 ⟨hdated, hwithin, hlines⟩
      exact ⟨hsymbol, hcallId⟩
    · rename_i hdated
      rintro ⟨hsymbol, hcallId⟩
      exact hdated (h.2 ⟨hsymbol, hcallId, hwithin⟩).1
  · intro h
    constructor
    · rintro ⟨hdated, hwithin, hlines⟩
      have hseparate := h hwithin
      rw [if_pos hdated] at hseparate
      obtain ⟨hsymbol, hcallId⟩ := hseparate hlines
      exact ⟨hsymbol, hcallId, hwithin⟩
    · rintro ⟨rfl, rfl, hwithin⟩
      refine ⟨?_, hwithin, rfl⟩
      by_contra hdated
      have hother := h hwithin
      rw [if_neg hdated] at hother
      exact hother ⟨rfl, rfl⟩

/-! ## A call that another header authorizes -/

/-- The keyed hash of `1`, `Cart#add`, `c`, `7` and `1700000000000`, by lines, under the
secret `s`. -/
def signedDigest : Bytes :=
  [0x16, 0x2A, 0x7E, 0xFA, 0xD6, 0x2B, 0x20, 0xDE, 0x49, 0x0A, 0x39, 0x40, 0x55, 0x83, 0x05, 0x5D,
    0x43, 0x4B, 0xDA, 0xF6, 0x1F, 0xD6, 0x12, 0x40, 0xED, 0x19, 0x4B, 0xF9, 0xCE, 0x1F, 0xC4, 0xA1]

/-- `Cart#add`. -/
def cartAdd : Text := spell ['C', 'a', 'r', 't', '#', 'a', 'd', 'd']

theorem auth_binds_cartAdd :
    Binds (fun _ _ => signedDigest) (spell ['s']) cartAdd (spell ['c', '\n', '7']) cartAdd
      (spell ['c', '\n', '7']) 1700000000000 1700000001000 :=
  (auth_binds_iff (fun _ _ => rfl) fun _ => rfl).2 fun _ => by
    exact fun _ => ⟨rfl, rfl⟩

/-- Under `/h`, the path `/h/Cart%23add%0Ac` names a symbol with a line feed in it. -/
example : symbolFromPathname (spell ['/', 'h', '/', 'C', 'a', 'r', 't', '%', '2', '3', 'a', 'd',
    'd', '%', '0', 'A', 'c']) (spell ['/', 'h']) = some (cartAdd ++ spell ['\n', 'c']) := by decide

/-- A header for call `c\n7` of `Cart#add` is one for call `7` of `Cart#add\nc`. -/
theorem not_auth_binds :
    ¬ ∀ (hmac : Bytes → Bytes → Bytes) (secret symbol callId symbol' callId' : Text) (t t' : Nat),
      (∀ key message, (hmac key message).length = 32) →
      NoCollision hmac secret (authMessage symbol callId t) (authMessage symbol' callId' t) →
      canonicalSymbol symbol = symbol → canonicalSymbol symbol' = symbol' →
      Binds hmac secret symbol callId symbol' callId' t t' := by
  intro h
  have hbinds := h (fun _ _ => signedDigest) (spell ['s']) cartAdd (spell ['c', '\n', '7'])
    (cartAdd ++ spell ['\n', 'c']) (spell ['7']) 1700000000000 1700000000000 (fun _ _ => rfl)
    (fun _ => encode_authMessage_inj.2 (by decide)) (by decide) (by decide)
  rw [auth_binds_iff (fun _ _ => rfl) fun _ => encode_authMessage_inj.2 (by decide)] at hbinds
  have hseparate := hbinds (by decide)
  exact absurd (hseparate (by decide)) (by decide)

end SigxActors.Cluster
