import Thirdshift.Foundation.Json

/-!
# Refresh requests

A node asks for a new token with a signature over its name and a time. Both may hold any bytes, the
separator too. The length of the name stands at the end, after the last separator, and tells where
the name stops.
-/

namespace Thirdshift.NodeAuth

open Foundation List

abbrev Bytes := List UInt8

def bytes (s : String) : Bytes := s.toList.map Char.toUInt8

/-- `strconv.Itoa`, of a length. -/
def itoa (n : Nat) : Bytes := (Json.decimal n).map Char.toUInt8

def refreshMessage (nodeID timestamp : Bytes) : Bytes :=
  bytes "thirdshift.node.token.refresh" ++ 10 :: (nodeID ++ 10 :: timestamp ++ 10 :: itoa nodeID.length)

structure RefreshRequest where
  nodeID : Bytes
  timestamp : Bytes
  signature : Bytes

/-- The libraries: times as RFC 3339 texts, base64, and ed25519. -/
structure Library where
  format : Int → Bytes
  parse : Bytes → Option Int
  encode : Bytes → Bytes
  decode : Bytes → Option Bytes
  sign : Bytes → Bytes → Bytes
  verify : Bytes → Bytes → Bytes → Bool
  decode_encode (b : Bytes) : decode (encode b) = some b

variable (lib : Library)

def signRefresh (privateKey nodeID : Bytes) (timestamp : Int) : Except String RefreshRequest :=
  if privateKey.length ≠ 64 then
    .error ("private key has " ++ toString privateKey.length ++ " bytes, want 64")
  else if nodeID = [] then .error "node_id is required"
  else
    let ts := lib.format timestamp
    .ok ⟨nodeID, ts, lib.encode (lib.sign privateKey (refreshMessage nodeID ts))⟩

def verifyRefresh (publicKey : Bytes) (req : RefreshRequest) (now maxSkew : Int) :
    Except String Unit :=
  if publicKey.length ≠ 32 then
    .error ("public key has " ++ toString publicKey.length ++ " bytes, want 32")
  else if req.nodeID = [] ∨ req.timestamp = [] ∨ req.signature = [] then
    .error "refresh request is incomplete"
  else match lib.parse req.timestamp with
    | none => .error "parse refresh timestamp"
    | some timestamp =>
      let skew := if maxSkew ≤ 0 then 300000000000 else maxSkew
      if now + skew < timestamp ∨ timestamp < now - skew then
        .error "refresh timestamp outside allowed clock skew"
      else match lib.decode req.signature with
        | none => .error "decode refresh signature"
        | some signature =>
          if lib.verify publicKey (refreshMessage req.nodeID req.timestamp) signature then .ok ()
          else .error "refresh signature verification failed"

theorem toUInt8_of_isDigit {c : Char} (digit : Json.isDigit c = true) :
    Char.ofUInt8 c.toUInt8 = c ∧ c.toUInt8 ≠ 10 := by
  have all : ∀ n < 58, 48 ≤ n →
      Char.ofUInt8 (Char.ofNat n).toUInt8 = Char.ofNat n ∧ (Char.ofNat n).toUInt8 ≠ 10 := by
    decide
  simp only [Json.isDigit, Bool.and_eq_true, decide_eq_true_eq] at digit
  have code := all c.toNat (by omega) digit.1
  rwa [Char.ofNat_toNat] at code

theorem itoa_inj {n m : Nat} (same : itoa n = itoa m) : n = m := by
  have back : ∀ n, (itoa n).map Char.ofUInt8 = Json.decimal n := by
    intro n
    rw [itoa, map_map]
    refine (map_congr_left fun c member => ?_).trans (map_id _)
    exact (toUInt8_of_isDigit (Json.isDigit_of_mem_decimal member)).1
  rw [← Json.readNat_decimal n, ← back, same, back, Json.readNat_decimal]

theorem newline_notMem_itoa (n : Nat) : 10 ∉ itoa n := by
  intro member
  obtain ⟨c, inside, code⟩ := mem_map.mp member
  exact (toUInt8_of_isDigit (Json.isDigit_of_mem_decimal inside)).2 code

theorem append_cons_inj_last {a a' d d' : Bytes} (last : 10 ∉ d) (last' : 10 ∉ d')
    (same : a ++ 10 :: d = a' ++ 10 :: d') : a = a' ∧ d = d' := by
  rcases append_eq_append_iff.mp same with ⟨k, rfl, tail⟩ | ⟨k, rfl, tail⟩
  all_goals
    cases k with
    | nil => simp_all
    | cons c k =>
      obtain ⟨-, rfl⟩ := cons.inj tail
      simp at last last'

theorem refreshMessage_inj {nodeID timestamp nodeID' timestamp' : Bytes}
    (same : refreshMessage nodeID timestamp = refreshMessage nodeID' timestamp') :
    nodeID = nodeID' ∧ timestamp = timestamp' := by
  have body := (cons.inj (append_cancel_left same)).2
  obtain ⟨fields, lengths⟩ :=
    append_cons_inj_last (newline_notMem_itoa _) (newline_notMem_itoa _) body
  obtain ⟨named, rest⟩ := append_inj fields (itoa_inj lengths)
  exact ⟨named, (cons.inj rest).2⟩

theorem verifyRefresh_ok {publicKey : Bytes} {req : RefreshRequest} {now maxSkew : Int}
    (ok : verifyRefresh lib publicKey req now maxSkew = .ok ()) : ∃ signature,
      lib.decode req.signature = some signature ∧
        lib.verify publicKey (refreshMessage req.nodeID req.timestamp) signature = true := by
  unfold verifyRefresh at ok
  generalize (if maxSkew ≤ 0 then 300000000000 else maxSkew) = skew at ok
  dsimp only at ok
  split at ok
  · cases ok
  split at ok
  · cases ok
  split at ok
  · cases ok
  split at ok
  · cases ok
  split at ok
  · cases ok
  next signature decoded =>
    split at ok
    next verified => exact ⟨signature, decoded, verified⟩
    · cases ok

/-- Two different requests never have the same message. So if a signature verifies for no message
but the one it was made for, a refresh signature is good for one node and one time. -/
theorem refresh_unambiguous :
    (∀ nodeID timestamp nodeID' timestamp',
      refreshMessage nodeID timestamp = refreshMessage nodeID' timestamp' →
        nodeID = nodeID' ∧ timestamp = timestamp') ∧
    ∀ privateKey publicKey,
      (∀ m m', lib.verify publicKey m' (lib.sign privateKey m) = true → m' = m) →
      ∀ nodeID time req, signRefresh lib privateKey nodeID time = .ok req →
        ∀ req' now maxSkew, req'.signature = req.signature →
          verifyRefresh lib publicKey req' now maxSkew = .ok () →
          req'.nodeID = nodeID ∧ req'.timestamp = lib.format time := by
  refine ⟨fun _ _ _ _ same => refreshMessage_inj same, ?_⟩
  intro privateKey publicKey unforgeable nodeID time req signed req' now maxSkew copied ok
  obtain ⟨signature, decoded, verified⟩ := verifyRefresh_ok lib ok
  unfold signRefresh at signed
  split at signed
  · cases signed
  split at signed
  · cases signed
  cases signed
  rw [copied, lib.decode_encode] at decoded
  cases decoded
  exact refreshMessage_inj (unforgeable _ _ verified)

/-- Times and texts as they are, with a signature that is the key and the message. -/
def plain : Library where
  format t := itoa t.toNat
  parse text := some (Json.readNat (text.map Char.ofUInt8))
  encode := id
  decode := some
  sign key message := key.take 32 ++ message
  verify key message signature := signature = key ++ message
  decode_encode _ := rfl

def signingKey : Bytes := replicate 64 7

/-- The request of a node is accepted, and its signature for no other node or time. -/
theorem refresh_unambiguous_plain : ∃ req,
    signRefresh plain signingKey [110, 49] 5 = .ok req ∧
    verifyRefresh plain (signingKey.take 32) req 5 0 = .ok () ∧
    ∀ req' now maxSkew, req'.signature = req.signature →
      verifyRefresh plain (signingKey.take 32) req' now maxSkew = .ok () →
      req'.nodeID = [110, 49] ∧ req'.timestamp = plain.format 5 := by
  refine ⟨_, rfl, by decide +kernel, ?_⟩
  refine (refresh_unambiguous plain).2 signingKey (signingKey.take 32) ?_ [110, 49] 5 _ rfl
  intro m m' verified
  exact (append_cancel_left (of_decide_eq_true verified)).symm

end Thirdshift.NodeAuth
