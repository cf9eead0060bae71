import PolyGate.Lib.Cut
import PolyGate.Lib.PyStr

/-!
# `Authentication.lean` — the keys of clients and of the policy administrator

`gateway/app/auth.py` and `automation/app/policy_auth.py`. Both compare what is supplied with what
is expected by `compare_digest`, which raises for a string that is not ASCII. Where it does not come
to that, who has no key is refused and nobody else (`require_iff`).
-/

namespace PolyGate.Authentication

open Lib

inductive Exc
  | httpException (statusCode : Nat) (detail : String) (headers : List (String × String))
  | typeError
  | runtimeError (text : String)
  | keyError (key : String)
  deriving DecidableEq, Repr

/-! ## Strings -/

theorem latin1_lt (b : UInt8) : b.toNat < 0x110000 := b.toNat_lt.trans (by decide)

/-- The value of a header, as Starlette decodes it. -/
def latin1 (bytes : List UInt8) : PyStr := bytes.map fun b => ⟨b.toNat, latin1_lt b⟩

/-- `s.partition(x)`, with whether there is an `x`. -/
def partition (x : CodePoint) (s : PyStr) : PyStr × Bool × PyStr :=
  (before x s, s.any fun p => p = x, after x s)

/-- A capital letter of Latin-1. -/
def IsCapital (p : CodePoint) : Prop :=
  0x41 ≤ p.val ∧ p.val ≤ 0x5a ∨ 0xc0 ≤ p.val ∧ p.val ≤ 0xde ∧ p.val ≠ 0xd7

instance (p : CodePoint) : Decidable (IsCapital p) := inferInstanceAs (Decidable (_ ∨ _))

theorem lower_lt {p : CodePoint} (h : IsCapital p) : p.val + 32 < 0x110000 := by
  unfold IsCapital at h
  omega

/-- `s.lower()`, of what was decoded as Latin-1. -/
def lower (s : PyStr) : PyStr :=
  s.map fun p => if h : IsCapital p then ⟨p.val + 32, lower_lt h⟩ else p

/-- `s.isascii()` -/
def isAscii (s : PyStr) : Bool := s.all fun p => p.val < 128

/-- `compare_digest` -/
def compareDigest (a b : PyStr) : Except Exc Bool :=
  if isAscii a && isAscii b then .ok (a = b) else .error .typeError

/-! ## Clients of the Gateway -/

/-- `_configured_keys`, from the environment variable. -/
def configuredKeys (polygateApiKeys : Option PyStr) : List PyStr :=
  (((polygateApiKeys.getD []).splitOn (codePoint ',')).filter fun key => strip key ≠ []).map strip

/-- `any(hmac.compare_digest(supplied, expected) for expected in keys)` -/
def anyMatches (supplied : PyStr) : List PyStr → Except Exc Bool
  | [] => .ok false
  | expected :: keys => do
    if ← compareDigest supplied expected then return true
    anyMatches supplied keys

def invalidApiKey : Exc :=
  .httpException 401 "invalid or missing PolyGate API key" [("WWW-Authenticate", "Bearer")]

/-- `require_client_api_key`, from the header if there is one. -/
def requireClientApiKey (polygateApiKeys : Option PyStr) (header : Option (List UInt8)) :
    Except Exc Unit := do
  let keys := configuredKeys polygateApiKeys
  if keys.isEmpty then return ()
  let authorization := (header.map latin1).getD []
  let (scheme, separator, supplied) := partition (codePoint ' ') authorization
  let valid ← if separator && lower scheme = str "bearer" && !supplied.isEmpty
    then anyMatches supplied keys else pure false
  if valid then return ()
  throw invalidApiKey

/-! ## The policy administrator -/

structure PolicyAdminAuthenticator where
  expectedKey : PyStr
  expectedKey_ne : expectedKey ≠ []

namespace PolicyAdminAuthenticator

def new (expectedKey : PyStr) : Except Exc PolicyAdminAuthenticator :=
  if h : expectedKey ≠ [] then .ok ⟨expectedKey, h⟩
  else .error (.runtimeError "policy administrator key must not be empty")

/-- `from_file`, from the text of the file. -/
def fromFile (text : PyStr) : Except Exc PolicyAdminAuthenticator := new (strip text)

/-- `from_environment_for_local_development`, from the two variables it looks up. -/
def fromEnvironmentForLocalDevelopment (policyAllowEnvAdminKey policyAdminKey : Option PyStr) :
    Except Exc PolicyAdminAuthenticator :=
  if policyAllowEnvAdminKey ≠ some (str "true") then
    .error (.runtimeError "environment policy key is disabled")
  else match policyAdminKey with
    | some expectedKey => new expectedKey
    | none => .error (.keyError "POLICY_ADMIN_KEY")

def invalidCredentials : Exc :=
  .httpException 401 "invalid policy administrator credentials" []

/-- `authorization.partition(" ") if authorization else ("", "", "")` -/
def parts : Option PyStr → PyStr × Bool × PyStr
  | none | some [] => ([], false, [])
  | some authorization => partition (codePoint ' ') authorization

def require (self : PolicyAdminAuthenticator) (header : Option (List UInt8)) :
    Except Exc Unit := do
  let (scheme, separator, credentials) := parts (header.map latin1)
  let supplied := if scheme = str "Bearer" && separator then strip credentials else []
  if ← compareDigest supplied self.expectedKey then return ()
  throw invalidCredentials

end PolicyAdminAuthenticator

/-! ## What a header says -/

section Strings

variable {x : CodePoint} {s a b : PyStr}

theorem partition_cut (h : x ∉ a) : partition x (a ++ x :: b) = (a, true, b) := by
  unfold partition
  rw [before_cut h, after_cut h]
  simp

theorem partition_of_notMem (h : x ∉ s) : partition x s = (s, false, []) := by
  unfold partition
  rw [before_of_notMem h, after_of_notMem h]
  have hany : (s.any fun p => decide (p = x)) = false := by
    rw [List.any_eq_false]
    intro p hp heq
    exact h (of_decide_eq_true heq ▸ hp)
  rw [hany]

theorem compareDigest_of_isAscii (ha : isAscii a = true) (hb : isAscii b = true) :
    compareDigest a b = .ok (decide (a = b)) := by
  unfold compareDigest
  simp [ha, hb]

theorem compareDigest_of_left (ha : isAscii a = false) : compareDigest a b = .error .typeError := by
  unfold compareDigest
  simp [ha]

theorem compareDigest_of_right (hb : isAscii b = false) :
    compareDigest a b = .error .typeError := by
  unfold compareDigest
  simp [hb]

/-- A small letter, or its capital. -/
def IsLetter (p : CodePoint) (c : Char) : Prop := p.val = c.toNat ∨ p.val + 32 = c.toNat

instance (p : CodePoint) (c : Char) : Decidable (IsLetter p c) :=
  inferInstanceAs (Decidable (_ ∨ _))

/-- `bearer`, in small letters or capitals. -/
def IsBearer (scheme : PyStr) : Prop := List.Forall₂ IsLetter scheme "bearer".toList

/-- Nothing else has a small letter for its lower case. -/
theorem lower_eq_iff {p : CodePoint} {c : Char} (hlow : 97 ≤ c.toNat) (hhigh : c.toNat ≤ 122) :
    lower [p] = [codePoint c] ↔ IsLetter p c := by
  unfold lower IsLetter
  rw [List.map_singleton, List.singleton_inj, Fin.ext_iff]
  show _ = c.toNat ↔ _
  split
  · rename_i hcapital
    unfold IsCapital at hcapital
    dsimp only
    omega
  · rename_i hcapital
    unfold IsCapital at hcapital
    omega

theorem lower_eq_map {s : PyStr} {cs : List Char} (h : ∀ c ∈ cs, 97 ≤ c.toNat ∧ c.toNat ≤ 122) :
    lower s = cs.map codePoint ↔ List.Forall₂ IsLetter s cs := by
  induction cs generalizing s with
  | nil =>
    rw [List.forall₂_nil_right_iff]
    exact List.map_eq_nil_iff
  | cons c cs ih =>
    obtain ⟨hc, hcs⟩ := List.forall_mem_cons.mp h
    cases s with
    | nil => simp [lower]
    | cons p s =>
      rw [List.forall₂_cons, ← lower_eq_iff hc.1 hc.2, ← ih hcs]
      exact ⟨fun h => ⟨congrArg (fun p => [p]) (List.cons.inj h).1, (List.cons.inj h).2⟩,
        fun h => congrArg₂ List.cons (List.singleton_inj.mp h.1) h.2⟩

theorem bearer_bounds : ∀ c ∈ "bearer".toList, 97 ≤ c.toNat ∧ c.toNat ≤ 122 := by simp

theorem isBearer_iff {scheme : PyStr} : lower scheme = str "bearer" ↔ IsBearer scheme :=
  lower_eq_map bearer_bounds

theorem IsBearer.notMem_space {scheme : PyStr} (h : IsBearer scheme) : codePoint ' ' ∉ scheme := by
  have hletters : ∀ {s cs}, List.Forall₂ IsLetter s cs → (∀ c ∈ cs, ¬ IsLetter (codePoint ' ') c) →
      codePoint ' ' ∉ s := by
    intro s cs h hcs
    induction h with
    | nil => exact List.not_mem_nil
    | cons hletter hrest ih =>
      obtain ⟨hc, hcs⟩ := List.forall_mem_cons.mp hcs
      intro hmem
      rcases List.mem_cons.mp hmem with rfl | hmem
      · exact hc hletter
      · exact ih hcs hmem
  refine hletters h fun c hc hletter => ?_
  have hbounds := bearer_bounds c hc
  have hspace : (codePoint ' ').val = 32 := rfl
  unfold IsLetter at hletter
  omega

end Strings

/-! ## The comparison with each key -/

section Keys

variable {supplied : PyStr} {keys : List PyStr}

/-- The keys up to the one that is supplied, and what is supplied, can be compared. -/
def Comparable (supplied : PyStr) (keys : List PyStr) : Prop :=
  isAscii supplied = true ∧ ∀ key ∈ keys.takeWhile (· ≠ supplied), isAscii key = true

instance : Decidable (Comparable supplied keys) := inferInstanceAs (Decidable (_ ∧ _))

/-- What is not ASCII fails at the first key. -/
theorem anyMatches_of_not_isAscii (hne : keys ≠ []) (h : isAscii supplied = false) :
    anyMatches supplied keys = .error .typeError := by
  cases keys with
  | nil => exact absurd rfl hne
  | cons expected keys =>
    unfold anyMatches
    rw [compareDigest_of_left h]
    rfl

theorem anyMatches_of_isAscii (h : isAscii supplied = true) : anyMatches supplied keys =
    if Comparable supplied keys then .ok (decide (supplied ∈ keys)) else .error .typeError := by
  induction keys with
  | nil =>
    rw [if_pos ⟨h, fun _ hkey => absurd hkey List.not_mem_nil⟩]
    rfl
  | cons expected keys ih =>
    unfold anyMatches
    by_cases heq : supplied = expected
    · subst heq
      rw [compareDigest_of_isAscii h h, if_pos]
      · simp [pure, Except.pure, bind, Except.bind]
      · refine ⟨h, fun key hkey => ?_⟩
        rw [List.takeWhile_cons_of_neg (by simp)] at hkey
        cases hkey
    · have htake : (expected :: keys).takeWhile (· ≠ supplied) =
          expected :: keys.takeWhile (· ≠ supplied) :=
            List.takeWhile_cons_of_pos (by simp [Ne.symm heq])
      cases hexpected : isAscii expected with
      | false =>
        rw [compareDigest_of_right hexpected, if_neg]
        · rfl
        · intro hcomparable
          have hkey := hcomparable.2 expected (htake ▸ List.mem_cons_self)
          rw [hexpected] at hkey
          cases hkey
      | true =>
        have hcomparable : Comparable supplied (expected :: keys) ↔ Comparable supplied keys := by
          unfold Comparable
          rw [htake, List.forall_mem_cons]
          simp [hexpected]
        rw [compareDigest_of_isAscii h hexpected, decide_eq_false heq]
        simp only [hcomparable, List.mem_cons, heq, false_or]
        exact ih

/-- **The keys, one after another.** -/
theorem anyMatches_eq (hne : keys ≠ []) : anyMatches supplied keys =
    if Comparable supplied keys then .ok (decide (supplied ∈ keys)) else .error .typeError := by
  cases h : isAscii supplied with
  | true => exact anyMatches_of_isAscii h
  | false =>
    rw [anyMatches_of_not_isAscii hne h, if_neg]
    intro hcomparable
    rw [hcomparable.1] at h
    cases h

end Keys

/-! ## Who is let in -/

/-- Who is accepted is let in, everybody else answered with a 401. -/
structure Answers (accepted : Prop) (o : Except Exc Unit) : Prop where
  returns : o = .ok () ↔ accepted
  refuses : ¬ accepted → ∃ detail headers, o = .error (.httpException 401 detail headers)

theorem not_answers_typeError {accepted : Prop} : ¬ Answers accepted (.error .typeError) := by
  intro h
  by_cases haccepted : accepted
  · cases h.returns.mpr haccepted
  · obtain ⟨detail, headers, heq⟩ := h.refuses haccepted
    cases heq

/-- For a test that has an outcome. -/
theorem answers_ite {accepted : Prop} {valid : Bool} {detail : String}
    {headers : List (String × String)} (h : valid = true ↔ accepted) :
    Answers accepted (if valid = true then .ok ()
      else .error (.httpException 401 detail headers)) := by
  rw [← h]
  cases valid with
  | true => exact ⟨by simp, fun hnot => absurd rfl hnot⟩
  | false => exact ⟨by simp, fun _ => ⟨detail, headers, rfl⟩⟩

section Clients

variable {polygateApiKeys : Option PyStr} {header : Option (List UInt8)} {scheme supplied : PyStr}

/-- The header is a bearer token. -/
def Bears (header : Option (List UInt8)) (supplied : PyStr) : Prop :=
  ∃ bytes scheme, header = some bytes ∧ latin1 bytes = scheme ++ codePoint ' ' :: supplied ∧
    IsBearer scheme

/-- There is no key, or the header bears one of the keys. -/
def ClientAccepted (polygateApiKeys : Option PyStr) (header : Option (List UInt8)) : Prop :=
  configuredKeys polygateApiKeys = [] ∨ ∃ key ∈ configuredKeys polygateApiKeys, Bears header key

/-- A token that is not empty can be compared with the keys. -/
def ClientComparable (polygateApiKeys : Option PyStr) (header : Option (List UInt8)) : Prop :=
  ∀ supplied, configuredKeys polygateApiKeys ≠ [] → Bears header supplied → supplied ≠ [] →
    Comparable supplied (configuredKeys polygateApiKeys)

theorem configuredKeys_ne_nil {key : PyStr} (h : key ∈ configuredKeys polygateApiKeys) :
    key ≠ [] := by
  obtain ⟨part, hpart, rfl⟩ := List.mem_map.mp h
  exact of_decide_eq_true (List.mem_filter.mp hpart).2

theorem Bears.unique {token : PyStr} (h : Bears header supplied) (h' : Bears header token) :
    token = supplied := by
  obtain ⟨bytes, scheme, rfl, hcut, hscheme⟩ := h
  obtain ⟨bytes', scheme', heq, hcut', hscheme'⟩ := h'
  cases heq
  exact (cut_first hscheme'.notMem_space hscheme.notMem_space (hcut'.symm.trans hcut)).2

theorem requireClientApiKey_of_nil (h : configuredKeys polygateApiKeys = []) :
    requireClientApiKey polygateApiKeys header = .ok () := by
  unfold requireClientApiKey
  rw [h]
  rfl

/-- A token is compared with the keys. -/
theorem requireClientApiKey_of_bears (hne : configuredKeys polygateApiKeys ≠ [])
    (h : Bears header supplied) (hsupplied : supplied ≠ []) :
    requireClientApiKey polygateApiKeys header =
      (anyMatches supplied (configuredKeys polygateApiKeys)).bind fun valid =>
        if valid = true then .ok () else .error invalidApiKey := by
  obtain ⟨bytes, scheme, rfl, hcut, hscheme⟩ := h
  unfold requireClientApiKey
  simp only [List.isEmpty_iff, hne, Option.map_some, Option.getD_some, hcut,
    partition_cut hscheme.notMem_space, isBearer_iff.mpr hscheme]
  simp [hsupplied]
  rfl

/-- Nothing is compared without a token. -/
theorem requireClientApiKey_of_not (hne : configuredKeys polygateApiKeys ≠ [])
    (h : ∀ supplied, Bears header supplied → supplied = []) :
    requireClientApiKey polygateApiKeys header = .error invalidApiKey := by
  unfold requireClientApiKey
  simp only [List.isEmpty_iff, hne]
  by_cases hspace : codePoint ' ' ∈ (header.map latin1).getD []
  · obtain ⟨scheme, supplied, hcut, hnot⟩ := List.eq_append_cons_of_mem hspace
    rw [hcut, partition_cut hnot]
    by_cases hscheme : IsBearer scheme
    · cases header with
      | none => cases hspace
      | some bytes =>
        rw [h supplied ⟨bytes, scheme, rfl, hcut, hscheme⟩]
        simp
        rfl
    · rw [← isBearer_iff] at hscheme
      simp [hscheme]
      rfl
  · rw [partition_of_notMem hspace]
    simp
    rfl

theorem answers_client_iff : Answers (ClientAccepted polygateApiKeys header)
    (requireClientApiKey polygateApiKeys header) ↔ ClientComparable polygateApiKeys header := by
  by_cases hnil : configuredKeys polygateApiKeys = []
  · rw [requireClientApiKey_of_nil hnil]
    refine iff_of_true ⟨iff_of_true rfl (Or.inl hnil), fun h => absurd (Or.inl hnil) h⟩ ?_
    exact fun supplied hne => absurd hnil hne
  · by_cases hbears : ∃ supplied, Bears header supplied ∧ supplied ≠ []
    · obtain ⟨supplied, hbears, hsupplied⟩ := hbears
      have haccepted : ClientAccepted polygateApiKeys header ↔
          supplied ∈ configuredKeys polygateApiKeys := by
        constructor
        · rintro (h | ⟨key, hkey, hbears'⟩)
          · exact absurd h hnil
          · exact hbears'.unique hbears ▸ hkey
        · exact fun hkey => Or.inr ⟨supplied, hkey, hbears⟩
      have hcomparable : ClientComparable polygateApiKeys header ↔
          Comparable supplied (configuredKeys polygateApiKeys) := by
        constructor
        · exact fun h => h supplied hnil hbears hsupplied
        · exact fun h token _ hbears' _ => hbears.unique hbears' ▸ h
      rw [hcomparable, requireClientApiKey_of_bears hnil hbears hsupplied, anyMatches_eq hnil]
      split
      · rename_i h
        exact iff_of_true (answers_ite (by rw [haccepted, decide_eq_true_iff])) h
      · rename_i h
        exact iff_of_false not_answers_typeError h
    · have hempty : ∀ supplied, Bears header supplied → supplied = [] := fun supplied h =>
        Classical.byContradiction fun hne => hbears ⟨supplied, h, hne⟩
      rw [requireClientApiKey_of_not hnil hempty]
      refine iff_of_true ⟨iff_of_false (fun h => by cases h) ?_, fun _ => ⟨_, _, rfl⟩⟩ ?_
      · rintro (h | ⟨key, hkey, h⟩)
        · exact hnil h
        · exact configuredKeys_ne_nil hkey (hempty key h)
      · exact fun supplied _ h hne => absurd (hempty supplied h) hne

end Clients

section Administrator

variable {authenticator : PolicyAdminAuthenticator} {header : Option (List UInt8)}

/-- The credentials behind `Bearer` and a space, if the header is so. -/
def Presents (header : Option (List UInt8)) (credentials : PyStr) : Prop :=
  ∃ bytes, header = some bytes ∧ latin1 bytes = str "Bearer " ++ credentials

/-- The header presents the key, with any white space around it. -/
def AdminAccepted (authenticator : PolicyAdminAuthenticator) (header : Option (List UInt8)) :
    Prop :=
  ∃ credentials, Presents header credentials ∧ strip credentials = authenticator.expectedKey

/-- The key can be compared, and so can what is presented. -/
def AdminComparable (authenticator : PolicyAdminAuthenticator) (header : Option (List UInt8)) :
    Prop :=
  isAscii authenticator.expectedKey = true ∧
    ∀ credentials, Presents header credentials → isAscii (strip credentials) = true

theorem presents_iff {credentials : PyStr} : Presents header credentials ↔
    ∃ bytes, header = some bytes ∧ latin1 bytes = str "Bearer" ++ codePoint ' ' :: credentials :=
  Iff.rfl

theorem notMem_bearer : codePoint ' ' ∉ str "Bearer" := by decide

theorem parts_some {authorization : PyStr} (h : authorization ≠ []) :
    PolicyAdminAuthenticator.parts (some authorization) =
      partition (codePoint ' ') authorization := by
  cases authorization with
  | nil => exact absurd rfl h
  | cons p rest => rfl

/-- What is presented is compared. -/
theorem require_of_presents {credentials : PyStr} (h : Presents header credentials) :
    authenticator.require header =
      (compareDigest (strip credentials) authenticator.expectedKey).bind fun valid =>
        if valid = true then .ok () else .error PolicyAdminAuthenticator.invalidCredentials := by
  obtain ⟨bytes, rfl, hcut⟩ := presents_iff.mp h
  unfold PolicyAdminAuthenticator.require
  rw [Option.map_some, hcut, parts_some (by simp), partition_cut notMem_bearer]
  rfl

/-- Otherwise it is the empty string that is compared. -/
theorem require_of_not (h : ∀ credentials, ¬ Presents header credentials) :
    authenticator.require header = (compareDigest [] authenticator.expectedKey).bind fun valid =>
        if valid = true then .ok () else .error PolicyAdminAuthenticator.invalidCredentials := by
  unfold PolicyAdminAuthenticator.require
  cases header with
  | none => rfl
  | some bytes =>
    by_cases hnil : latin1 bytes = []
    · rw [Option.map_some, hnil]
      rfl
    · rw [Option.map_some, parts_some hnil]
      by_cases hspace : codePoint ' ' ∈ latin1 bytes
      · obtain ⟨scheme, credentials, hcut, hnot⟩ := List.eq_append_cons_of_mem hspace
        have hscheme : scheme ≠ str "Bearer" := by
          rintro rfl
          exact h credentials ⟨bytes, rfl, hcut⟩
        rw [hcut, partition_cut hnot]
        simp [hscheme]
        rfl
      · rw [partition_of_notMem hspace]
        simp
        rfl

theorem answers_compareDigest {accepted : Prop} {supplied expected : PyStr}
    (h : supplied = expected ↔ accepted) : Answers accepted
      ((compareDigest supplied expected).bind fun valid =>
        if valid = true then .ok () else .error PolicyAdminAuthenticator.invalidCredentials) ↔
    isAscii expected = true ∧ isAscii supplied = true := by
  cases hexpected : isAscii expected with
  | false =>
    rw [compareDigest_of_right hexpected]
    exact iff_of_false not_answers_typeError fun h => by cases h.1
  | true =>
    cases hsupplied : isAscii supplied with
    | false =>
      rw [compareDigest_of_left hsupplied]
      exact iff_of_false not_answers_typeError fun h => by cases h.2
    | true =>
      rw [compareDigest_of_isAscii hsupplied hexpected]
      exact iff_of_true (answers_ite (decide_eq_true_iff.trans h)) ⟨rfl, rfl⟩

theorem answers_admin_iff : Answers (AdminAccepted authenticator header)
    (authenticator.require header) ↔ AdminComparable authenticator header := by
  by_cases hpresents : ∃ credentials, Presents header credentials
  · obtain ⟨credentials, hpresents⟩ := hpresents
    have hunique : ∀ other, Presents header other → other = credentials := by
      rintro other ⟨bytes, rfl, hcut⟩
      obtain ⟨bytes', heq, hcut'⟩ := hpresents
      cases heq
      exact List.append_cancel_left (hcut.symm.trans hcut')
    have haccepted : strip credentials = authenticator.expectedKey ↔
        AdminAccepted authenticator header := by
      constructor
      · exact fun h => ⟨credentials, hpresents, h⟩
      · rintro ⟨other, hother, h⟩
        exact hunique other hother ▸ h
    rw [require_of_presents hpresents, answers_compareDigest haccepted]
    refine and_congr_right fun _ => ⟨fun h other hother => ?_, fun h => h credentials hpresents⟩
    exact hunique other hother ▸ h
  · have hnot : ∀ credentials, ¬ Presents header credentials := fun credentials h =>
      hpresents ⟨credentials, h⟩
    have haccepted : [] = authenticator.expectedKey ↔ AdminAccepted authenticator header := by
      refine iff_of_false (fun h => authenticator.expectedKey_ne h.symm) ?_
      exact fun ⟨credentials, h, _⟩ => hnot credentials h
    rw [require_of_not hnot, answers_compareDigest haccepted]
    refine and_congr_right fun _ => iff_of_true rfl ?_
    exact fun credentials h => absurd h (hnot credentials)

end Administrator

/-- **Who has a key is let in and everybody else refused, exactly if the comparison does not
raise.** -/
theorem require_iff (polygateApiKeys : Option PyStr) (authenticator : PolicyAdminAuthenticator)
    (header : Option (List UInt8)) :
    (Answers (ClientAccepted polygateApiKeys header)
      (requireClientApiKey polygateApiKeys header) ↔ ClientComparable polygateApiKeys header) ∧
    (Answers (AdminAccepted authenticator header) (authenticator.require header) ↔
      AdminComparable authenticator header) :=
  ⟨answers_client_iff, answers_admin_iff⟩

/-- `Bearer é` -/
def accented : List UInt8 := [0x42, 0x65, 0x61, 0x72, 0x65, 0x72, 0x20, 0xe9]

theorem oneAdmin_ne : str "policy-admin" ≠ [] := by decide

def oneAdmin : PolicyAdminAuthenticator := ⟨str "policy-admin", oneAdmin_ne⟩

/-- A wrong token that is not ASCII is not refused: both raise. -/
theorem accented_not_refused :
    ¬ Answers (ClientAccepted (some (str "secret-one,secret-two")) (some accented))
      (requireClientApiKey (some (str "secret-one,secret-two")) (some accented)) ∧
    ¬ Answers (AdminAccepted oneAdmin (some accented)) (oneAdmin.require (some accented)) := by
  have hclient : requireClientApiKey (some (str "secret-one,secret-two")) (some accented) =
      .error .typeError := by decide +kernel
  have hadmin : oneAdmin.require (some accented) = .error .typeError := by decide +kernel
  rw [hclient, hadmin]
  exact ⟨not_answers_typeError, not_answers_typeError⟩

end PolyGate.Authentication
