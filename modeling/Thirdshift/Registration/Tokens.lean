import Mathlib.Data.List.TakeDrop
import Mathlib.Logic.Equiv.List
import Thirdshift.Protocol

/-!
# Access tokens

A token carries its expiry in whole seconds, while `Issue` returns the instant itself. So a token is
accepted up to the last whole second before the instant it was promised for, and to the instant
itself only when that is a whole second.
-/

namespace Thirdshift.Tokens

/-- The whole seconds of an instant, which is in nanoseconds since the epoch. -/
def unix (t : Int) : Int := t / 1000000000

structure Claims where
  nodeID : NodeID
  issued : Int
  expiry : Int

/-- The libraries: claims as JSON in base64, and the keyed hash of a text in base64. -/
structure Library where
  encode : Claims → List Char
  decode : List Char → Option Claims
  mac : List UInt8 → List Char → List Char
  decode_encode (claims : Claims) : decode (encode claims) = some claims
  encode_undotted (claims : Claims) : '.' ∉ encode claims
  mac_undotted (secret : List UInt8) (text : List Char) : '.' ∉ mac secret text

structure TokenSigner where
  secret : List UInt8
  ttl : Int

/-- `strings.Split` at dots, when that makes two parts. -/
def split (token : List Char) : Option (List Char × List Char) :=
  match token.span (· ≠ '.') with
  | (payload, _ :: signature) => if '.' ∈ signature then none else some (payload, signature)
  | _ => none

theorem split_append {payload signature : List Char} (first : '.' ∉ payload)
    (second : '.' ∉ signature) : split (payload ++ '.' :: signature) = some (payload, signature) := by
  have parts : (payload ++ '.' :: signature).span (· ≠ '.') = (payload, '.' :: signature) := by
    rw [List.span_eq_takeWhile_dropWhile, List.takeWhile_append_of_pos, List.dropWhile_append_of_pos]
    · simp
    all_goals exact fun c member => decide_eq_true fun same => first (same ▸ member)
  rw [split, parts]
  exact if_neg second

namespace TokenSigner

variable (lib : Library) (s : TokenSigner)

def issue (nodeID : NodeID) (now : Int) : Except String (List Char × Int) :=
  if s.secret = [] then .error "access token secret is required"
  else if nodeID = "" then .error "node_id is required"
  else
    let ttl := if s.ttl ≤ 0 then 3600000000000 else s.ttl
    let expiry := now + ttl
    let encoded := lib.encode ⟨nodeID, unix now, unix expiry⟩
    .ok (encoded ++ '.' :: lib.mac s.secret encoded, expiry)

def verify (token : List Char) (now : Int) : Except String Claims :=
  if s.secret = [] then .error "access token secret is required"
  else match split token with
    | none => .error "invalid access token shape"
    | some (payload, signature) =>
      if lib.mac s.secret payload ≠ signature then .error "invalid access token signature"
      else match lib.decode payload with
        | none => .error "decode access token payload"
        | some claims =>
          if claims.nodeID = "" then .error "access token missing node_id"
          else if ¬now < claims.expiry * 1000000000 then .error "access token expired"
          else .ok claims

def Accepts (token : List Char) (nodeID : NodeID) (now : Int) : Prop :=
  ∃ claims, s.verify lib token now = .ok claims ∧ claims.nodeID = nodeID

variable {lib s} {nodeID : NodeID} {now : Int} {token : List Char} {expiry : Int}

theorem accepts_iff (issued : s.issue lib nodeID now = .ok (token, expiry)) (u : Int) :
    s.Accepts lib token nodeID u ↔ u < unix expiry * 1000000000 := by
  unfold issue at issued
  split at issued
  · cases issued
  next secret =>
    split at issued
    · cases issued
    next named =>
      obtain ⟨rfl, rfl⟩ := Prod.mk.inj (Except.ok.inj issued)
      generalize now + _ = expiry
      unfold Accepts verify
      rw [if_neg secret, split_append (lib.encode_undotted _) (lib.mac_undotted _ _)]
      simp only [ne_eq, not_true, if_false, lib.decode_encode, named]
      constructor
      · rintro ⟨claims, ok, -⟩
        split at ok
        · cases ok
        next early => exact not_not.mp early
      · exact fun early => ⟨_, if_neg (not_not.mpr early), rfl⟩

theorem issue_ok (secret : s.secret ≠ []) (named : nodeID ≠ "") (positive : 0 < s.ttl) :
    ∃ token, s.issue lib nodeID now = .ok (token, now + s.ttl) := by
  unfold issue
  rw [if_neg secret, if_neg named, if_neg (Int.not_le.mpr positive)]
  exact ⟨_, rfl⟩

theorem signed_of_verify {claims : Claims} (ok : s.verify lib token now = .ok claims) :
    ∃ payload, Tokens.split token = some (payload, lib.mac s.secret payload) := by
  unfold verify at ok
  split at ok
  · cases ok
  · split at ok
    · cases ok
    next payload signature parts =>
      split at ok
      · cases ok
      next signed =>
        rw [not_not] at signed
        exact ⟨payload, signed ▸ parts⟩

end TokenSigner

open TokenSigner

/-- A token is issued to every node. It lives as long as promised when the promised instant is a
whole second and only then, and never longer. No token is accepted but with a payload that was
issued, if a hash can be presented only of a payload that was. -/
theorem token_lives_iff {lib : Library} {s : TokenSigner} {nodeID : NodeID} (now : Int)
    (secret : s.secret ≠ []) (named : nodeID ≠ "") (positive : 0 < s.ttl) :
    (∃ token, s.issue lib nodeID now = .ok (token, now + s.ttl)) ∧
    (∀ token expiry, s.issue lib nodeID now = .ok (token, expiry) →
      ((∀ u, now ≤ u → u < expiry → s.Accepts lib token nodeID u) ↔ expiry % 1000000000 = 0) ∧
      ∀ u, expiry ≤ u → ¬s.Accepts lib token nodeID u) ∧
    ∀ (Presented : List Char → List Char → Prop) (Issued : List Char → Prop),
      (∀ payload, Presented payload (lib.mac s.secret payload) → Issued payload) →
      ∀ other u claims payload signature, split other = some (payload, signature) →
        Presented payload signature → s.verify lib other u = .ok claims → Issued payload := by
  obtain ⟨token, issued⟩ : ∃ token, s.issue lib nodeID now = .ok (token, now + s.ttl) :=
    issue_ok secret named positive
  refine ⟨⟨token, issued⟩, fun token' expiry issued' => ?_, ?_⟩
  · obtain ⟨rfl, rfl⟩ := Prod.mk.inj (Except.ok.inj (issued'.symm.trans issued))
    have floor : unix (now + s.ttl) * 1000000000 = now + s.ttl - (now + s.ttl) % 1000000000 := by
      unfold unix
      omega
    refine ⟨⟨fun lives => ?_, fun whole u _ before => ?_⟩, fun u late => ?_⟩
    · by_contra part
      have last := (accepts_iff issued _).mp (lives (now + s.ttl - 1) (by omega) (by omega))
      omega
    · exact (accepts_iff issued u).mpr (by omega)
    · rw [accepts_iff issued]
      omega
  · intro Presented Issued unforgeable other u claims payload signature parts presented ok
    obtain ⟨payload', parts'⟩ := signed_of_verify ok
    cases parts.symm.trans parts'
    exact unforgeable _ presented

/-- A library of its own for the runs below. A text is as long as the number of the claims. -/
def unary : Library where
  encode claims := .replicate (Encodable.encode
    (claims.nodeID.toList.map Char.toNat, claims.issued, claims.expiry)) 'a'
  decode text := (Encodable.decode text.length).map fun (c : List Nat × Int × Int) =>
    ⟨.ofList (c.1.map Char.ofNat), c.2.1, c.2.2⟩
  mac _ text := .replicate text.length 'b'
  decode_encode claims := by
    have chars : Char.ofNat ∘ Char.toNat = id := funext Char.ofNat_toNat
    rw [List.length_replicate, Encodable.encodek]
    simp [chars]
  encode_undotted claims := by simp
  mac_undotted secret text := by simp

theorem token_lives_iff_second :
    ∃ token, (⟨[1], 1000000000⟩ : TokenSigner).issue unary "n1" 5000000000 = .ok (token, 6000000000) ∧
      ∀ u, 5000000000 ≤ u → u < 6000000000 →
        (⟨[1], 1000000000⟩ : TokenSigner).Accepts unary token "n1" u :=
  ⟨_, rfl, ((token_lives_iff 5000000000 (by decide) (by decide) (by decide)).2.1 _ _ rfl).1.mpr
    (by decide)⟩

/-- A token issued half a second past a whole one dies half a second early. -/
theorem token_dies_early :
    ∃ token, (⟨[1], 1000000000⟩ : TokenSigner).issue unary "n1" 5500000000 = .ok (token, 6500000000) ∧
      ¬(⟨[1], 1000000000⟩ : TokenSigner).Accepts unary token "n1" 6000000000 := by
  refine ⟨_, rfl, ?_⟩
  rw [accepts_iff rfl]
  decide

end Thirdshift.Tokens
