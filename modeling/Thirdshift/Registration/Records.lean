import Thirdshift.Registration.Presence

/-!
# Session records

A connection handler opens its session, records heartbeats of it and closes it. The instant of the
close is an argument of a deferred call, so it is read when the session is opened and precedes every
heartbeat. A session that is being drained is not closed at all.
-/

namespace Thirdshift

open Foundation Table

/-- The row says when the session ended, and a heartbeat lies between its start and its end. -/
def NodeSession.Truthful (s : NodeSession) : Prop :=
  (s.state = .closed ∨ s.state = .stale) ∧ ∃ ended, s.disconnectedAt = some ended ∧
    s.connectedAt ≤ ended ∧
    ∀ heard, s.lastHeartbeatAt = some heard → s.connectedAt ≤ heard ∧ heard ≤ ended

namespace SessionCall

/-- The instant that a call reads from the clock when it is made. -/
def instant : SessionCall → Option Time
  | .openSession _ _ now | .quarantineNode _ now | .markStale _ now => some now
  | .recordHeartbeat _ _ _ _ receivedAt => some receivedAt
  | _ => none

structure Meanwhile (sessionID : SessionID) (since : Time) (call : SessionCall) : Prop where
  clock : ∀ t, call.instant = some t → since ≤ t
  unclosed : ∀ nodeID now, call ≠ .closeSession sessionID nodeID now

def Spares (sessionID : SessionID) (call : SessionCall) : Prop :=
  ∀ heartbeatID hb state receivedAt, call ≠ .recordHeartbeat heartbeatID sessionID hb state receivedAt

section

variable {sessionID : SessionID} {since : Time} {db db' : Db} {call : SessionCall} {s : NodeSession}

structure Underway (since : Time) (s : NodeSession) : Prop where
  connected : s.connectedAt = since
  heard : ∀ t, s.lastHeartbeatAt = some t → since ≤ t
  unclosed : s.state ≠ .closed
  swept : s.state = .stale → ∃ t, s.disconnectedAt = some t ∧ since ≤ t

theorem Underway.onSession (underway : Underway since s) (meanwhile : call.Meanwhile s.id since) :
    Underway since (call.onSession db s) := by
  cases call with
  | recordHeartbeat heartbeatID other hb state receivedAt =>
    simp only [SessionCall.onSession, Table.updateWhere]
    split
    · refine { underway with heard := ?_ }
      rintro t ⟨⟩
      exact meanwhile.clock receivedAt rfl
    · exact underway
  | closeSession other nodeID now =>
    simp only [SessionCall.onSession, Table.updateWhere]
    split
    next closes =>
      exact absurd (by rw [(of_decide_eq_true closes).1]) (meanwhile.unclosed nodeID now)
    · exact underway
  | markStale cutoff now =>
    simp only [SessionCall.onSession, Table.updateWhere]
    split
    · exact ⟨underway.1, underway.2, by simp, fun _ => ⟨now, rfl, meanwhile.clock now rfl⟩⟩
    · exact underway
  | drainNode nodeID =>
    simp only [SessionCall.onSession, Table.updateWhere]
    split
    · exact ⟨underway.1, underway.2, by simp, by simp⟩
    · exact underway
  | _ => exact underway

theorem onSession_of_ended (found : db.sessions.find? s.id = some s) (ended : s.state ≠ .connected)
    (spares : call.Spares s.id) : call.onSession db s = s := by
  cases call with
  | recordHeartbeat heartbeatID other hb state receivedAt =>
    refine if_neg fun same => spares heartbeatID hb state receivedAt ?_
    rw [of_decide_eq_true same]
  | closeSession => exact if_neg fun closes => ended (of_decide_eq_true closes).2
  | markStale => exact if_neg fun silent => ended (of_decide_eq_true silent).1
  | drainNode nodeID =>
    refine if_neg fun picked => ?_
    obtain ⟨latest, is, same⟩ := (Option.any_eq_true _ _).mp picked
    obtain ⟨inside, live⟩ := List.mem_filter.mp (mem_of_latestBy is)
    have here := find?_of_mem inside
    rw [← of_decide_eq_true same, found] at here
    cases here
    exact ended (of_decide_eq_true live).2
  | _ => rfl

theorem Effect.session_found (effect : call.Effect db db')
    (found : db.sessions.find? sessionID = some s) :
    db'.sessions.find? sessionID = some (call.onSession db s) := by
  rw [effect.sessions, found]
  rfl

end

end SessionCall

open SessionCall

/-- After any calls of others while a session is open and after it: its record is true if and only
if the session was not being drained when its handler closed it, and its last heartbeat came no
later than the instant it was opened at, or than the sweep that had ended it. -/
theorem session_record_true_iff {sessionID : SessionID} {nodeID : NodeID} {since openedAt : Time}
    {db₀ db₁ db₃ : Db} {between after : List SessionCall}
    (opens : (openSession sessionID nodeID since).Effect db₀ db₁) (clock : since ≤ openedAt)
    (meanwhile : ∀ call ∈ between, call.Meanwhile sessionID since)
    (closes : (closeSession sessionID nodeID openedAt).Effect (applyAll between db₁) db₃)
    (later : ∀ call ∈ after, call.Spares sessionID) :
    ∃ s row, (applyAll between db₁).sessions.find? sessionID = some s ∧
      (applyAll after db₃).sessions.find? sessionID = some row ∧
      (row.Truthful ↔ s.state ≠ .draining ∧ ∀ heard, s.lastHeartbeatAt = some heard →
        ∀ ended, (if s.state = .connected then some openedAt else s.disconnectedAt) = some ended →
          heard ≤ ended) := by
  have opened : db₁.sessions.find? sessionID = some ⟨sessionID, nodeID, .connected, since, none, none⟩ := by
    have fresh : db₀.sessions.find? sessionID = none := opens.fresh _ rfl
    rw [opens.sessions, fresh]
    simp [SessionCall.opened]
  obtain ⟨s, found, underway⟩ : ∃ s, (applyAll between db₁).sessions.find? sessionID = some s ∧
      Underway since s := by
    refine Along.invariant (I := fun db => ∃ s, db.sessions.find? sessionID = some s ∧
      Underway since s) ?_ between db₁ (.of_forall meanwhile db₁)
      ⟨_, opened, rfl, by simp, by simp, by simp⟩
    rintro db db' call here effect ⟨s, found, underway⟩
    have key : s.id = sessionID := key_of_find? found
    exact ⟨_, effect.session_found found, underway.onSession (key ▸ here)⟩
  have key : s.id = sessionID := key_of_find? found
  have closed := closes.session_found found
  generalize made : (closeSession sessionID nodeID openedAt).onSession _ s = r at closed
  have row : s.state = .connected ∧ r = { s with state := .closed, disconnectedAt := some openedAt } ∨
      s.state ≠ .connected ∧ r = s := by
    rw [← made]
    by_cases live : s.state = .connected
    · exact .inl ⟨live, if_pos (decide_eq_true ⟨key, live⟩)⟩
    · exact .inr ⟨live, if_neg fun closes => live (of_decide_eq_true closes).2⟩
  have ended : r.state ≠ .connected := by
    rcases row with ⟨-, rfl⟩ | ⟨ended, rfl⟩
    · simp
    · exact ended
  have kept : (applyAll after db₃).sessions.find? sessionID = some r := by
    refine Along.invariant (I := fun db => db.sessions.find? sessionID = some r) ?_ after db₃
      (.of_forall later db₃) closed
    intro db db' call spares effect found
    have key : r.id = sessionID := key_of_find? found
    rw [effect.session_found found, onSession_of_ended (key ▸ found) ended (key ▸ spares)]
  refine ⟨s, r, found, kept, ?_⟩
  obtain ⟨connected, heard, unclosed, swept⟩ := underway
  rcases row with ⟨live, rfl⟩ | ⟨over', rfl⟩
  · rw [if_pos live]
    constructor
    · rintro ⟨-, ended, ⟨⟩, -, order⟩
      refine ⟨by simp [live], ?_⟩
      rintro t last _ ⟨⟩
      exact (order t last).2
    · rintro ⟨-, order⟩
      exact ⟨.inl rfl, openedAt, rfl, connected ▸ clock, fun t last =>
        ⟨connected ▸ heard t last, order t last openedAt rfl⟩⟩
  · rw [if_neg over']
    constructor
    · rintro ⟨state, ended, at', -, order⟩
      refine ⟨fun draining => ?_, fun t last other same => ?_⟩
      · simp [draining] at state
      · cases at'.symm.trans same
        exact (order t last).2
    · rintro ⟨undrained, order⟩
      have stale : r.state = .stale := by
        cases state : r.state with
        | connected => exact absurd state over'
        | draining => exact absurd state undrained
        | closed => exact absurd state unclosed
        | stale => rfl
      obtain ⟨ended, at', later⟩ := swept stale
      exact ⟨.inr stale, ended, at', connected ▸ later, fun t last =>
        ⟨connected ▸ heard t last, order t last ended at'⟩⟩

/-- A session whose handler has heard one heartbeat, in the instant it was opened. -/
theorem session_record_true_iff_instant :
    ∃ row, (applyAll [.openSession "s1" "n1" 0, availableHeartbeat "h1" "s1" "n1" 0,
      .closeSession "s1" "n1" 0] (.registered .empty ["n1"])).sessions.find? "s1" = some row ∧
      row.Truthful := by
  have opens := (effect_of_apply (.openSession "s1" "n1" 0) (.registered .empty ["n1"])).resolve_right
    fun same => absurd (congrArg (fun db => db.sessions.rows.length) same) (by decide +kernel)
  have closes := (effect_of_apply (.closeSession "s1" "n1" 0) (applyAll
    [availableHeartbeat "h1" "s1" "n1" 0] ((openSession "s1" "n1" 0).apply (.registered .empty
      ["n1"])))).resolve_right fun same =>
        absurd (congrArg (fun db => db.sessions.rows.map NodeSession.state) same) (by decide +kernel)
  have meanwhile : ∀ call ∈ [availableHeartbeat "h1" "s1" "n1" 0], call.Meanwhile "s1" 0 := by
    rintro call member
    obtain rfl := List.mem_singleton.mp member
    exact ⟨by simp [availableHeartbeat, instant], by simp [availableHeartbeat]⟩
  have nothing : ∀ call ∈ ([] : List SessionCall), call.Spares "s1" := by simp
  obtain ⟨s, row, found, kept, true'⟩ :=
    session_record_true_iff opens (Int.le_refl 0) meanwhile closes nothing
  have heard : _ = some (⟨"s1", "n1", .connected, 0, some 0, none⟩ : NodeSession) := rfl
  cases heard.symm.trans found
  exact ⟨row, kept, true'.mpr ⟨by simp, by simp⟩⟩

/-- A heartbeat later than the instant of the opening is later than the end. -/
theorem session_ends_before_heartbeat :
    ∃ row, (applyAll [.openSession "s1" "n1" 0, availableHeartbeat "h1" "s1" "n1" 10,
      .closeSession "s1" "n1" 0] (.registered .empty ["n1"])).sessions.find? "s1" = some row ∧
      ¬row.Truthful := by
  refine ⟨⟨"s1", "n1", .closed, 0, some 10, some 0⟩, rfl, ?_⟩
  rintro ⟨-, ended, ⟨⟩, -, order⟩
  exact absurd (order 10 rfl).2 (by decide)

end Thirdshift
