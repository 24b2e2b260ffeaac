/-
  Host/WatchKey.lean --- the keys of shared watches.

  Source: `packages/actors/src/watch-core.ts` (`canonicalKey`, `writeCanonical`) and
  `packages/actors/src/host/watch.ts` (`watchKey`, `qualifyWatchKey`).

  A string is the list of its code units.  A number is the text that `String` gives for
  it, with `-0` spelled out.  The values are what the codec leaves: a value it cannot
  carry, for which the code throws, has no counterpart.
-/

set_option autoImplicit false

namespace SigxActors.Host

/-! ## The grammar -/

/-- A string, by code units. -/
abbrev JsString := List UInt16

/-- The code unit of a character of the source. -/
def codeUnit (c : Char) : UInt16 := c.toNat.toUInt16

/-- `String(n)` of a length. -/
def decimal (n : Nat) : JsString := (Nat.toDigits 10 n).map codeUnit

/-- A lead byte, a length and the colon behind it. -/
def header (lead : Char) (n : Nat) : JsString := codeUnit lead :: decimal n ++ [codeUnit ':']

/-- A codec-encoded value. -/
inductive Encoded where
  | null
  | undefined
  | boolean (b : Bool)
  | number (text : JsString)
  | string (s : JsString)
  | array (items : List Encoded)
  | record (fields : List (JsString × Encoded))

mutual

/-- `writeCanonical`, of a value whose records are in key order. -/
def writeCanonical : Encoded → JsString
  | .null => [codeUnit 'z']
  | .undefined => [codeUnit 'u']
  | .boolean true => [codeUnit 't']
  | .boolean false => [codeUnit 'f']
  | .number text => header 'n' text.length ++ text
  | .string s => header 's' s.length ++ s
  | .array items => header 'a' items.length ++ writeItems items
  | .record fields => header 'o' fields.length ++ writeFields fields

def writeItems : List Encoded → JsString
  | [] => []
  | item :: items => writeCanonical item ++ writeItems items

def writeFields : List (JsString × Encoded) → JsString
  | [] => []
  | (key, value) :: fields =>
      header 'k' key.length ++ key ++ writeCanonical value ++ writeFields fields

end

mutual

/-- `Object.keys(record).sort()`, at every level. -/
def Encoded.sortKeys : Encoded → Encoded
  | .array items => .array (sortItems items)
  | .record fields => .record ((sortFields fields).mergeSort fun a b => decide (a.1 ≤ b.1))
  | value => value

def sortItems : List Encoded → List Encoded
  | [] => []
  | item :: items => item.sortKeys :: sortItems items

def sortFields : List (JsString × Encoded) → List (JsString × Encoded)
  | [] => []
  | (key, value) :: fields => (key, value.sortKeys) :: sortFields fields

end

def canonicalKey (parts : List Encoded) : JsString :=
  writeItems (parts.map (·.sortKeys))

/-- The key of a read. -/
def watchKey (method throttleMs : JsString) (encodedArgs : Encoded) : JsString :=
  canonicalKey [.string method, .number throttleMs, encodedArgs]

/-- The encoded principal, or `undefined`. -/
def encodedPrincipal : Option JsString → Encoded
  | none => .undefined
  | some principal => .string principal

def qualifyWatchKey (base : JsString) (principal : Option JsString) : JsString :=
  base ++ codeUnit 'P' :: canonicalKey [encodedPrincipal principal]

/-! ## Every node delimits itself -/

/-- A digit is read back from its code unit. -/
theorem codeUnit_digit {c : Char} (h : c.isDigit) : Char.ofNat (codeUnit c).toNat = c := by
  have hsmall : c.toNat < 58 := by
    simp only [Char.isDigit, ge_iff_le, Bool.and_eq_true, decide_eq_true_eq] at h
    have hle : c.val.toNat ≤ 57 := h.2
    exact Nat.lt_succ_of_le hle
  have hunit : (codeUnit c).toNat = c.toNat := by
    simp only [codeUnit, Nat.toUInt16, UInt16.toNat_ofNat']
    omega
  rw [hunit, Char.ofNat_toNat]

theorem codeUnit_digit_ne_colon {c : Char} (h : c.isDigit) : codeUnit c ≠ codeUnit ':' := by
  intro heq
  have hback := codeUnit_digit h
  rw [heq] at hback
  rw [← hback] at h
  exact absurd h (by decide)

variable {r r' : JsString} {p : Option JsString}

/-- A run of digits ends at the colon. -/
theorem digits_append_inj {ds ds' : List Char} (hds : ∀ c ∈ ds, c.isDigit)
    (hds' : ∀ c ∈ ds', c.isDigit)
    (h : ds.map codeUnit ++ codeUnit ':' :: r = ds'.map codeUnit ++ codeUnit ':' :: r') :
    ds = ds' ∧ r = r' := by
  induction ds generalizing ds' with
  | nil =>
    cases ds' with
    | nil => exact ⟨rfl, by simpa using h⟩
    | cons d ds' =>
      simp only [List.map_nil, List.nil_append, List.map_cons, List.cons_append,
        List.cons.injEq] at h
      exact absurd h.1.symm (codeUnit_digit_ne_colon (hds' d (by simp)))
  | cons d ds ih =>
    cases ds' with
    | nil =>
      simp only [List.map_nil, List.nil_append, List.map_cons, List.cons_append,
        List.cons.injEq] at h
      exact absurd h.1 (codeUnit_digit_ne_colon (hds d (by simp)))
    | cons d' ds' =>
      simp only [List.map_cons, List.cons_append, List.cons.injEq] at h
      obtain ⟨hhead, htail⟩ := h
      have hd : d = d' := by
        rw [← codeUnit_digit (hds d (by simp)), ← codeUnit_digit (hds' d' (by simp)), hhead]
      obtain ⟨hds, hr⟩ := ih (fun c hc => hds c (by simp [hc]))
        (fun c hc => hds' c (by simp [hc])) htail
      exact ⟨by rw [hd, hds], hr⟩

theorem decimal_append_inj {n n' : Nat}
    (h : decimal n ++ codeUnit ':' :: r = decimal n' ++ codeUnit ':' :: r') : n = n' ∧ r = r' := by
  have hdigits : ∀ m, ∀ c ∈ Nat.toDigits 10 m, c.isDigit := by
    intro m c hc
    exact Nat.isDigit_of_mem_toDigits (by decide) (by decide) hc
  obtain ⟨hds, hr⟩ := digits_append_inj (hdigits n) (hdigits n') h
  refine ⟨?_, hr⟩
  rw [← Nat.ofDigitChars_ten_toDigits (n := n), hds, Nat.ofDigitChars_ten_toDigits]

/-- A header gives the length, and a text of that length ends where it says. -/
theorem header_append_inj {lead : Char} {n n' : Nat}
    (h : header lead n ++ r = header lead n' ++ r') : n = n' ∧ r = r' := by
  simp only [header, List.cons_append, List.append_assoc, List.cons.injEq, true_and,
    List.nil_append] at h
  exact decimal_append_inj h

theorem text_append_inj {lead : Char} {s s' : JsString}
    (h : header lead s.length ++ (s ++ r) = header lead s'.length ++ (s' ++ r')) :
    s = s' ∧ r = r' := by
  obtain ⟨hlength, htext⟩ := header_append_inj h
  exact List.append_inj htext hlength

/-- The first code unit of a value. -/
def Encoded.lead : Encoded → Char
  | .null => 'z'
  | .undefined => 'u'
  | .boolean true => 't'
  | .boolean false => 'f'
  | .number _ => 'n'
  | .string _ => 's'
  | .array _ => 'a'
  | .record _ => 'o'

theorem head_writeCanonical (v : Encoded) : (writeCanonical v).head? = some (codeUnit v.lead) := by
  cases v with
  | boolean b => cases b <;> rfl
  | _ => rfl

/-- Two values that are written alike begin alike. -/
theorem lead_eq {v w : Encoded} (h : writeCanonical v ++ r = writeCanonical w ++ r') :
    v.lead = w.lead := by
  have hascii : ∀ u : Encoded, u.lead.toNat < 128 := by
    intro u
    cases u with
    | boolean b => cases b <;> decide
    | _ => simp [Encoded.lead]
  have hhead : some (codeUnit v.lead) = some (codeUnit w.lead) := by
    have happ := congrArg List.head? h
    simpa [List.head?_append, head_writeCanonical] using happ
  have hunits := congrArg UInt16.toNat (Option.some.inj hhead)
  simp only [codeUnit, Nat.toUInt16, UInt16.toNat_ofNat'] at hunits
  have hv := hascii v
  have hw := hascii w
  refine Char.ext (UInt32.toNat_inj.1 ?_)
  show v.lead.toNat = w.lead.toNat
  omega

mutual

/-- Every value delimits itself: what is written first is read back, and what is left
is left. -/
theorem writeCanonical_append_inj : ∀ (v w : Encoded) (r r' : JsString),
    writeCanonical v ++ r = writeCanonical w ++ r' → v = w ∧ r = r' := by
  intro v w r r' h
  have hlead := lead_eq h
  match v with
  | .null =>
    cases w <;> simp [Encoded.lead] at hlead
    · exact ⟨rfl, by simpa [writeCanonical] using h⟩
    · rename_i b
      cases b <;> simp at hlead
  | .undefined =>
    cases w <;> simp [Encoded.lead] at hlead
    · exact ⟨rfl, by simpa [writeCanonical] using h⟩
    · rename_i b
      cases b <;> simp at hlead
  | .boolean b =>
    cases w <;> cases b <;> simp [Encoded.lead] at hlead
    all_goals
      rename_i b'
      cases b' <;> simp at hlead
      exact ⟨rfl, by simpa [writeCanonical] using h⟩
  | .number text =>
    cases w <;> simp [Encoded.lead] at hlead
    · rename_i b
      cases b <;> simp at hlead
    · simp only [writeCanonical, List.append_assoc] at h
      obtain ⟨rfl, hr⟩ := text_append_inj h
      exact ⟨rfl, hr⟩
  | .string s =>
    cases w <;> simp [Encoded.lead] at hlead
    · rename_i b
      cases b <;> simp at hlead
    · simp only [writeCanonical, List.append_assoc] at h
      obtain ⟨rfl, hr⟩ := text_append_inj h
      exact ⟨rfl, hr⟩
  | .array items =>
    cases w <;> simp [Encoded.lead] at hlead
    · rename_i b
      cases b <;> simp at hlead
    · rename_i items'
      simp only [writeCanonical, List.append_assoc] at h
      obtain ⟨hlength, hitems⟩ := header_append_inj h
      obtain ⟨rfl, hr⟩ := writeItems_append_inj items items' r r' hlength hitems
      exact ⟨rfl, hr⟩
  | .record fields =>
    cases w <;> simp [Encoded.lead] at hlead
    · rename_i b
      cases b <;> simp at hlead
    · rename_i fields'
      simp only [writeCanonical, List.append_assoc] at h
      obtain ⟨hlength, hfields⟩ := header_append_inj h
      obtain ⟨rfl, hr⟩ := writeFields_append_inj fields fields' r r' hlength hfields
      exact ⟨rfl, hr⟩

theorem writeItems_append_inj : ∀ (vs ws : List Encoded) (r r' : JsString),
    vs.length = ws.length → writeItems vs ++ r = writeItems ws ++ r' → vs = ws ∧ r = r' := by
  intro vs ws r r' hlength h
  match vs, ws with
  | [], [] => exact ⟨rfl, by simpa [writeItems] using h⟩
  | v :: vs, w :: ws =>
    simp only [writeItems, List.append_assoc] at h
    obtain ⟨rfl, hrest⟩ := writeCanonical_append_inj v w _ _ h
    obtain ⟨rfl, hr⟩ := writeItems_append_inj vs ws r r' (by simpa using hlength) hrest
    exact ⟨rfl, hr⟩

theorem writeFields_append_inj : ∀ (vs ws : List (JsString × Encoded)) (r r' : JsString),
    vs.length = ws.length → writeFields vs ++ r = writeFields ws ++ r' → vs = ws ∧ r = r' := by
  intro vs ws r r' hlength h
  match vs, ws with
  | [], [] => exact ⟨rfl, by simpa [writeFields] using h⟩
  | (k, v) :: vs, (k', w) :: ws =>
    simp only [writeFields, List.append_assoc] at h
    obtain ⟨rfl, hvalue⟩ := text_append_inj h
    obtain ⟨rfl, hrest⟩ := writeCanonical_append_inj v w _ _ hvalue
    obtain ⟨rfl, hr⟩ := writeFields_append_inj vs ws r r' (by simpa using hlength) hrest
    exact ⟨rfl, hr⟩

end

/-! ## Base keys and qualified keys -/

/-- The three values of a base key end where its qualifier begins. -/
theorem watchKey_append_inj {method method' throttleMs throttleMs' : JsString}
    {args args' : Encoded}
    (h : watchKey method throttleMs args ++ r = watchKey method' throttleMs' args' ++ r') :
    watchKey method throttleMs args = watchKey method' throttleMs' args' ∧ r = r' := by
  obtain ⟨hparts, hr⟩ := writeItems_append_inj _ _ r r' (by simp) h
  exact ⟨by simp only [watchKey, canonicalKey, hparts], hr⟩

/-- A base key of some read. -/
def IsWatchKey (base : JsString) : Prop :=
  ∃ method throttleMs args, base = watchKey method throttleMs args

theorem encodedPrincipal_inj {p' : Option JsString}
    (h : canonicalKey [encodedPrincipal p] = canonicalKey [encodedPrincipal p']) : p = p' := by
  have hparts := (writeItems_append_inj [(encodedPrincipal p).sortKeys]
    [(encodedPrincipal p').sortKeys] [] [] (by simp)
    (by simpa [canonicalKey] using h)).1
  cases p with
  | none =>
    cases p' with
    | none => rfl
    | some _ => simp [encodedPrincipal, Encoded.sortKeys] at hparts
  | some principal =>
    cases p' with
    | none => simp [encodedPrincipal, Encoded.sortKeys] at hparts
    | some _ => simpa [encodedPrincipal, Encoded.sortKeys] using hparts

theorem qualifyWatchKey_ne {base base' : JsString} (hbase : IsWatchKey base)
    (hbase' : IsWatchKey base') : qualifyWatchKey base p ≠ base' := by
  obtain ⟨method, throttleMs, args, rfl⟩ := hbase
  obtain ⟨method', throttleMs', args', rfl⟩ := hbase'
  intro h
  rw [← List.append_nil (watchKey method' throttleMs' args')] at h
  exact absurd (watchKey_append_inj h).2 (by simp)

/-- Two qualified keys are equal only where the reads and the principals are. -/
theorem qualifyWatchKey_inj {base base' : JsString} {p' : Option JsString}
    (hbase : IsWatchKey base) (hbase' : IsWatchKey base')
    (h : qualifyWatchKey base p = qualifyWatchKey base' p') : base = base' ∧ p = p' := by
  obtain ⟨method, throttleMs, args, rfl⟩ := hbase
  obtain ⟨method', throttleMs', args', rfl⟩ := hbase'
  obtain ⟨hbase, hrest⟩ := watchKey_append_inj h
  exact ⟨hbase, encodedPrincipal_inj (List.cons.inj hrest).2⟩

end SigxActors.Host
