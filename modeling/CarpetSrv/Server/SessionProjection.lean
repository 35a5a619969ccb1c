import CarpetSrv.Server.PlayerLifetime

/-!
# One session of the server

`tick`, `requestKickPlayer` and `shutdown` walk over the vector of players, and
the completions of asio reach one connection each. The vector is at any time
the list of the live sessions in the order of their accepts, so each walk
reaches every live session once. Seen from one session, a run of the server is
a run of that session alone, by the events that concern it.

## Implementation notes

`Session.step` speaks about one session and does not mention the server. The
event that a session sees no longer tells its index and its address.

A late packet may use a deleted player, whose memory may by then be that of
another session's player. What is said about whole sessions is said for runs
without such a packet.
-/

namespace CarpetSrv.Server

open Foundation Network Utils

variable {κ : Type}

namespace Session

/-- `tick` on the player of one session. -/
def tick (env : Environment κ) (now : Int) (session : Session κ) : Session κ :=
  if session.live = true then
    if session.connection.running = true then
      { session with connection := Connection.sendKeepAlive env now session.connection }
    else { session with live := false }
  else session

/-- Kick the player of one session and delete it. -/
def kick (env : Environment κ) (reason : UTF16String) (session : Session κ) : Session κ :=
  if session.live = true then
    { session with
      live := false
      connection := Connection.disconnectWith env reason session.connection }
  else session

/-- `requestKickPlayer` on the player of one session. -/
def kickAt (env : Environment κ) (player : Option Address) (reason : UTF16String)
    (session : Session κ) : Session κ :=
  if player = some session.address then session.kick env reason else session

/-- The reason that `shutdown` gives. -/
def restarting : UTF16String := createUTF16String (literal ("Server is restarting...".toList))

/-- The session that an accept begins. -/
def accepted (address : Address) (created : Int) : Session κ :=
  { address, connection := Connection.handleConnection {} (Connection.create created) }

end Session

/-- What can happen to a session. -/
inductive SessionEvent
  | completion (e : ConnectionEvent)
  | tick (now : Int)
  | kick (reason : UTF16String)

/-- The event of the session with index `i` at this address in an event of the server. -/
def ServerEvent.seen (i : PlayerId) (address : Address) : ServerEvent → Option SessionEvent
  | .completion j e => if j = i then some (.completion e) else none
  | .tick now => some (.tick now)
  | .requestKickPlayer player reason =>
      if player = some address then some (.kick reason) else none
  | .shutdown => some (.kick Session.restarting)
  | .handleAccept _ _ | .acceptFailed => none

namespace Session

def step (env : Environment κ) (session : Session κ) : SessionEvent → Option (Session κ)
  | .completion e =>
      if isCompletion e = true then
        (Connection.step env session.connection e).map fun c => { session with connection := c }
      else none
  | .tick now => some (session.tick env now)
  | .kick reason => some (session.kick env reason)

/-! ## What the steps leave alone -/

section Lowers

variable (env : Environment κ) (session : Session κ)

@[simp] theorem tick_address (now : Int) : (session.tick env now).address = session.address := by
  unfold tick
  split_ifs <;> rfl

@[simp] theorem kick_address (reason : UTF16String) :
    (session.kick env reason).address = session.address := by
  unfold kick
  split_ifs <;> rfl

@[simp] theorem kickAt_address (player : Option Address) (reason : UTF16String) :
    (session.kickAt env player reason).address = session.address := by
  unfold kickAt
  split_ifs
  · exact kick_address ..
  · rfl

@[simp] theorem kick_live (reason : UTF16String) : (session.kick env reason).live = false := by
  unfold kick
  split_ifs with h
  · rfl
  · exact Bool.eq_false_iff.mpr h

theorem tick_of_dead (now : Int) (h : session.live = false) : session.tick env now = session := by
  rw [tick, if_neg (by simp [h])]

theorem kick_of_dead (reason : UTF16String) (h : session.live = false) :
    session.kick env reason = session := by
  rw [kick, if_neg (by simp [h])]

theorem kickAt_of_ne {player : Option Address} (reason : UTF16String)
    (h : session.live = true → player ≠ some session.address) :
    session.kickAt env player reason = session := by
  unfold kickAt
  split_ifs with ha
  · exact kick_of_dead env session reason (Bool.eq_false_iff.mpr fun hl => h hl ha)
  · rfl

theorem live_of_tick {now : Int} (h : (session.tick env now).live = true) :
    session.live = true := by
  by_contra hl
  rw [tick, if_neg hl] at h
  exact hl h

theorem live_of_kickAt {player : Option Address} {reason : UTF16String}
    (h : (session.kickAt env player reason).live = true) : session.live = true := by
  unfold kickAt at h
  split_ifs at h
  · rw [kick_live] at h
    cases h
  · exact h

end Lowers

end Session

/-! ## The live sessions in order -/

/-- The pointers to the live players among the sessions, which are numbered from `k` on. -/
def rosterFrom : Nat → List (Session κ) → List PlayerPtr
  | _, [] => []
  | k, session :: sessions =>
      if session.live = true then some k :: rosterFrom (k + 1) sessions
      else rosterFrom (k + 1) sessions

theorem rosterFrom_append (k : Nat) (front rest : List (Session κ)) :
    rosterFrom k (front ++ rest) = rosterFrom k front ++ rosterFrom (k + front.length) rest := by
  induction front generalizing k with
  | nil => rfl
  | cons session front ih =>
      have hk : k + 1 + front.length = k + (front.length + 1) := by omega
      simp only [List.cons_append, rosterFrom, ih, List.length_cons, hk]
      split_ifs <;> rfl

theorem rosterFrom_cons_of_live {session : Session κ} (h : session.live = true) (k : Nat)
    (sessions : List (Session κ)) :
    rosterFrom k (session :: sessions) = some k :: rosterFrom (k + 1) sessions := by
  rw [rosterFrom, if_pos h]

theorem rosterFrom_cons_of_dead {session : Session κ} (h : session.live = false) (k : Nat)
    (sessions : List (Session κ)) :
    rosterFrom k (session :: sessions) = rosterFrom (k + 1) sessions := by
  rw [rosterFrom, if_neg (by simp [h])]

theorem rosterFrom_concat_of_live {session : Session κ} (h : session.live = true)
    (front : List (Session κ)) :
    rosterFrom 0 (front ++ [session]) = rosterFrom 0 front ++ [some front.length] := by
  rw [rosterFrom_append, rosterFrom_cons_of_live h, Nat.zero_add]
  rfl

theorem rosterFrom_concat_of_dead {session : Session κ} (h : session.live = false)
    (front : List (Session κ)) : rosterFrom 0 (front ++ [session]) = rosterFrom 0 front := by
  rw [rosterFrom_append, rosterFrom_cons_of_dead h, rosterFrom, List.append_nil]

/-- A change of a session that neither creates nor deletes a player keeps the roster. -/
theorem rosterFrom_set {sessions : List (Session κ)} {i : Nat} {session session' : Session κ}
    (hs : sessions[i]? = some session) (hl : session'.live = session.live) (k : Nat) :
    rosterFrom k (sessions.set i session') = rosterFrom k sessions := by
  induction sessions generalizing i k with
  | nil => rfl
  | cons first sessions ih =>
      cases i with
      | zero =>
          obtain rfl : first = session := Option.some.inj hs
          simp only [List.set_cons_zero, rosterFrom, hl]
      | succ i =>
          simp only [List.set_cons_succ, rosterFrom]
          rw [ih hs]

/-- Live players have different addresses. -/
def Apart (sessions : List (Session κ)) : Prop :=
  sessions.Pairwise fun s t => s.live = true → t.live = true → s.address ≠ t.address

theorem Apart.map {sessions : List (Session κ)} {f : Session κ → Session κ}
    (h : Apart sessions) (ha : ∀ s, (f s).address = s.address)
    (hl : ∀ s, (f s).live = true → s.live = true) : Apart (sessions.map f) := by
  refine List.pairwise_map.mpr (h.imp ?_)
  intro s t hst hs ht
  rw [ha, ha]
  exact hst (hl s hs) (hl t ht)

theorem Apart.set {sessions : List (Session κ)} {i : Nat} {session session' : Session κ}
    (h : Apart sessions) (hs : sessions[i]? = some session)
    (ha : session'.address = session.address) (hl : session'.live = session.live) :
    Apart (sessions.set i session') := by
  obtain ⟨hi, rfl⟩ := List.getElem?_eq_some_iff.mp hs
  have htags : (sessions.set i session').map (fun s => (s.live, s.address)) =
      sessions.map fun s => (s.live, s.address) := by
    rw [List.map_set, ha, hl]
    apply List.ext_getElem (by simp)
    intro j _ hj
    rw [List.length_map] at hj
    by_cases hij : i = j
    · subst hij
      simp
    · simp [List.getElem_set_ne hij]
  have hpairs : (sessions.map fun s => (s.live, s.address)).Pairwise
      fun a b => a.1 = true → b.1 = true → a.2 ≠ b.2 := List.pairwise_map.mpr h
  rw [← htags] at hpairs
  exact List.pairwise_map.mp hpairs

/-! ## The walks over the vector of players -/

namespace VanillaMinecraftServer

variable {env : Environment κ} {srv srv' : VanillaMinecraftServer κ}
  {front rest : List (Session κ)} {session : Session κ}

/-- The vector of players lists the live sessions in order, and their addresses differ. -/
structure Rostered (srv : VanillaMinecraftServer κ) : Prop where
  players : srv.players = rosterFrom 0 srv.sessions
  apart : Apart srv.sessions

theorem onConnection_sessions (f : Connection κ → Connection κ)
    (h : srv.sessions = front ++ session :: rest) :
    (srv.onConnection front.length f).sessions =
      front ++ { session with connection := f session.connection } :: rest := by
  simp [onConnection, setConnection, h]

theorem deletePlayer_sessions (h : srv.sessions = front ++ session :: rest) :
    (srv.deletePlayer front.length).sessions =
      front ++ { session with live := false } :: rest := by
  have hlt : front.length < (front ++ session :: rest).length := by simp
  simp [deletePlayer, h, List.modify_eq_take_cons_drop hlt]

theorem kickAndDelete_sessions (reason : UTF16String)
    (h : srv.sessions = front ++ session :: rest) (hl : session.live = true) :
    (srv.kickAndDelete env reason (some front.length)).sessions =
      front ++ session.kick env reason :: rest := by
  have hk := deletePlayer_sessions
    (onConnection_sessions (Connection.disconnectWith env reason) h)
  rw [Session.kick, if_pos hl]
  exact hk

theorem isAlive_middle (h : srv.sessions = front ++ session :: rest) :
    srv.isAlive front.length = session.connection.running := by
  simp [isAlive, h]

theorem addressOf_middle (h : srv.sessions = front ++ session :: rest) :
    srv.addressOf (some front.length) = some session.address := by
  simp [addressOf, h]

variable (env) in
/-- The walk of `tick` takes every session through its own tick. -/
theorem tickLoop_sessions (now : Int) (h : srv.sessions = front ++ rest) :
    (tickLoop env now srv (rosterFrom 0 front) (rosterFrom front.length rest)).sessions =
        front ++ rest.map (Session.tick env now) ∧
      (tickLoop env now srv (rosterFrom 0 front) (rosterFrom front.length rest)).players =
        rosterFrom 0 (front ++ rest.map (Session.tick env now)) := by
  induction rest generalizing front srv with
  | nil => simpa [rosterFrom, tickLoop] using h
  | cons session rest ih =>
      -- The walk goes on behind the session, in whatever state it left the session.
      have hnext : ∀ {srv' : VanillaMinecraftServer κ},
          srv'.sessions = front ++ session.tick env now :: rest → _ := fun {srv'} h' =>
        ih (show srv'.sessions = (front ++ [session.tick env now]) ++ rest by
          rw [h', List.append_assoc]; rfl)
      simp only [List.append_assoc, List.singleton_append, List.length_append,
        List.length_singleton] at hnext
      rw [List.map_cons]
      cases hl : session.live with
      | false =>
          have hsame := session.tick_of_dead env now hl
          rw [hsame, rosterFrom_concat_of_dead hl] at hnext
          rw [hsame, rosterFrom_cons_of_dead hl]
          exact hnext h
      | true =>
          rw [rosterFrom_cons_of_live hl, tickLoop, isAlive_middle h]
          cases hr : session.connection.running with
          | true =>
              have htick : session.tick env now =
                  { session with
                    connection := Connection.sendKeepAlive env now session.connection } := by
                rw [Session.tick, if_pos hl, if_pos hr]
              rw [rosterFrom_concat_of_live (by rw [htick, hl])] at hnext
              refine hnext ?_
              rw [htick]
              exact onConnection_sessions _ h
          | false =>
              have htick : session.tick env now = { session with live := false } := by
                rw [Session.tick, if_pos hl, if_neg (by simp [hr])]
              rw [rosterFrom_concat_of_dead (by rw [htick])] at hnext
              refine hnext ?_
              rw [htick]
              exact deletePlayer_sessions h

variable (env) in
theorem tick_sessions (h : srv.Rostered) (now : Int) :
    (srv.tick env now).sessions = srv.sessions.map (Session.tick env now) ∧
      (srv.tick env now).Rostered := by
  have hloop := tickLoop_sessions env now (show srv.sessions = [] ++ srv.sessions from rfl)
  rw [rosterFrom, List.length_nil, ← h.players] at hloop
  refine ⟨hloop.1, ?_, ?_⟩
  · rw [tick, hloop.1]
    exact hloop.2
  · rw [tick, hloop.1]
    exact h.apart.map (fun s => s.tick_address env now) fun s => s.live_of_tick env

variable (env) in
/-- The walk of `shutdown` takes every session through its own kick. -/
theorem foldl_kickAndDelete_sessions (reason : UTF16String) (h : srv.sessions = front ++ rest) :
    ((rosterFrom front.length rest).foldl
        (fun srv player => srv.kickAndDelete env reason player) srv).sessions =
      front ++ rest.map (Session.kick env reason) := by
  induction rest generalizing front srv with
  | nil => simpa [rosterFrom] using h
  | cons session rest ih =>
      have hnext : ∀ {srv' : VanillaMinecraftServer κ},
          srv'.sessions = front ++ session.kick env reason :: rest → _ := fun {srv'} h' =>
        ih (show srv'.sessions = (front ++ [session.kick env reason]) ++ rest by
          rw [h', List.append_assoc]; rfl)
      simp only [List.append_assoc, List.singleton_append, List.length_append,
        List.length_singleton] at hnext
      rw [List.map_cons]
      cases hl : session.live with
      | false =>
          rw [session.kick_of_dead env reason hl] at hnext ⊢
          rw [rosterFrom_cons_of_dead hl]
          exact hnext h
      | true =>
          rw [rosterFrom_cons_of_live hl, List.foldl_cons]
          exact hnext (kickAndDelete_sessions reason h hl)

theorem rosterFrom_of_dead {sessions : List (Session κ)} (h : ∀ s ∈ sessions, s.live = false)
    (k : Nat) : rosterFrom k sessions = [] := by
  induction sessions generalizing k with
  | nil => rfl
  | cons session sessions ih =>
      rw [rosterFrom_cons_of_dead (h _ List.mem_cons_self)]
      exact ih (fun s hs => h s (List.mem_cons_of_mem _ hs)) _

variable (env) in
theorem shutdown_sessions (h : srv.Rostered) :
    (srv.shutdown env).sessions = srv.sessions.map (Session.kick env Session.restarting) ∧
      (srv.shutdown env).Rostered := by
  have hs : (srv.shutdown env).sessions =
      srv.sessions.map (Session.kick env Session.restarting) := by
    have hfold := foldl_kickAndDelete_sessions env Session.restarting
      (show srv.sessions = [] ++ srv.sessions from rfl)
    rw [List.length_nil, ← h.players] at hfold
    exact hfold
  refine ⟨hs, ?_, ?_⟩
  · rw [hs, rosterFrom_of_dead]
    · rfl
    · intro s hmem
      obtain ⟨t, _, rfl⟩ := List.mem_map.mp hmem
      exact t.kick_live env _
  · rw [hs]
    refine h.apart.map (fun s => s.kick_address env _) fun s hl => ?_
    rw [s.kick_live env] at hl
    cases hl

variable (env) in
/-- The walk of `requestKickPlayer` finds the only live session at the address. -/
theorem requestKickLoop_sessions (player : Option Address) (reason : UTF16String)
    (h : srv.sessions = front ++ rest)
    (hp : srv.players = rosterFrom 0 front ++ rosterFrom front.length rest)
    (ha : Apart rest) :
    (requestKickLoop env player reason srv (rosterFrom 0 front)
        (rosterFrom front.length rest)).sessions =
        front ++ rest.map (Session.kickAt env player reason) ∧
      (requestKickLoop env player reason srv (rosterFrom 0 front)
        (rosterFrom front.length rest)).players =
        rosterFrom 0 (front ++ rest.map (Session.kickAt env player reason)) := by
  induction rest generalizing front with
  | nil =>
      simp only [rosterFrom, List.append_nil, List.map_nil, requestKickLoop] at h hp ⊢
      exact ⟨h, hp⟩
  | cons session rest ih =>
      obtain ⟨hfirst, hrest⟩ := List.pairwise_cons.mp ha
      rw [List.map_cons]
      by_cases hit : session.live = true ∧ player = some session.address
      · obtain ⟨hl, rfl⟩ := hit
        have hmap : rest.map (Session.kickAt env (some session.address) reason) = rest := by
          refine (List.map_congr_left fun s hs => ?_).trans (List.map_id rest)
          exact s.kickAt_of_ne env reason fun hsl heq =>
            hfirst s hs hl hsl (Option.some.inj heq)
        have hkick : session.kickAt env (some session.address) reason =
            session.kick env reason := if_pos rfl
        rw [rosterFrom_cons_of_live hl, requestKickLoop, if_pos (addressOf_middle h), hmap, hkick]
        refine ⟨kickAndDelete_sessions reason h hl, ?_⟩
        rw [rosterFrom_append, rosterFrom_cons_of_dead (session.kick_live env reason),
          Nat.zero_add]
      · have hne : session.live = true → player ≠ some session.address :=
          fun hl heq => hit ⟨hl, heq⟩
        have hroster : srv.players =
            rosterFrom 0 (front ++ [session]) ++ rosterFrom (front ++ [session]).length rest := by
          have happend := rosterFrom_append 0 (front ++ [session]) rest
          rw [Nat.zero_add, List.append_assoc] at happend
          rw [hp, ← happend, List.singleton_append, rosterFrom_append, Nat.zero_add]
        have hnext := ih (by rw [h, List.append_assoc]; rfl) hroster hrest
        simp only [List.append_assoc, List.singleton_append, List.length_append,
          List.length_singleton] at hnext
        rw [session.kickAt_of_ne env reason hne]
        cases hl : session.live with
        | false =>
            rw [rosterFrom_concat_of_dead hl] at hnext
            rw [rosterFrom_cons_of_dead hl]
            exact hnext
        | true =>
            rw [rosterFrom_concat_of_live hl] at hnext
            have haddress : srv.addressOf (some front.length) ≠ player := by
              rw [addressOf_middle h]
              exact (hne hl).symm
            rw [rosterFrom_cons_of_live hl, requestKickLoop, if_neg haddress]
            exact hnext

variable (env) in
theorem requestKickPlayer_sessions (h : srv.Rostered) (player : Option Address)
    (reason : UTF16String) :
    (srv.requestKickPlayer env player reason).sessions =
        srv.sessions.map (Session.kickAt env player reason) ∧
      (srv.requestKickPlayer env player reason).Rostered := by
  have hloop := requestKickLoop_sessions env player reason
    (show srv.sessions = [] ++ srv.sessions from rfl) h.players h.apart
  rw [rosterFrom, List.length_nil, ← h.players] at hloop
  refine ⟨hloop.1, ?_, ?_⟩
  · rw [requestKickPlayer, hloop.1]
    exact hloop.2
  · rw [requestKickPlayer, hloop.1]
    exact h.apart.map (fun s => s.kickAt_address env _ _) fun s => s.live_of_kickAt env

theorem handleAccept_rostered {address : Address} (created : Int) (h : srv.Rostered)
    (ha : ∀ session ∈ srv.sessions, session.live = true → session.address ≠ address) :
    (srv.handleAccept address created).Rostered := by
  constructor
  · rw [handleAccept, rosterFrom_concat_of_live rfl]
    exact congrArg (· ++ _) h.players
  · refine List.pairwise_append.mpr ⟨h.apart, List.pairwise_singleton _ _, ?_⟩
    intro s hs t ht hl _
    rw [List.mem_singleton.mp ht]
    exact ha s hs hl

/-! ## Every step -/

/-- The session that an event begins. -/
def begun : ServerEvent → List (Session κ)
  | .handleAccept address created => [Session.accepted address created]
  | _ => []

/-- The session with index `i` moves by the event that it sees, or stays. -/
def Moves (env : Environment κ) (i : PlayerId) (e : ServerEvent) (s s' : Session κ) : Prop :=
  GuardedRun (Session.step env) Unguarded s (e.seen i s.address).toList s'

theorem moves_some {s s' : Session κ} {i : PlayerId} {e : ServerEvent} {f : SessionEvent}
    (he : e.seen i s.address = some f) (hs : s.step env f = some s') : Moves env i e s s' := by
  rw [Moves, he]
  exact .cons trivial hs (.refl s')

theorem moves_none {s : Session κ} {i : PlayerId} {e : ServerEvent}
    (he : e.seen i s.address = none) : Moves env i e s s := by
  rw [Moves, he]
  exact .refl s

/-- Every step keeps the roster, moves every session by the event that it sees,
and begins a session exactly when it is an accept. -/
theorem step_projects {e : ServerEvent} (hstep : step env srv e = some srv') (h : srv.Rostered) :
    srv'.Rostered ∧
      (∀ i s, srv.sessions[i]? = some s → ∃ s', srv'.sessions[i]? = some s' ∧
        s'.address = s.address ∧ Moves env i e s s') ∧
      ∃ kept, srv'.sessions = kept ++ begun e ∧ kept.length = srv.sessions.length := by
  have hmap : ∀ {f : Session κ → Session κ}, srv'.sessions = srv.sessions.map f →
      (∀ s, (f s).address = s.address) → (∀ i s, Moves env i e s (f s)) →
      (∀ (i : PlayerId) (s : Session κ), srv.sessions[i]? = some s →
        ∃ s', srv'.sessions[i]? = some s' ∧ s'.address = s.address ∧ Moves env i e s s') ∧
        ∃ kept, srv'.sessions = kept ++ [] ∧ kept.length = srv.sessions.length := by
    intro f hf ha hm
    rw [hf]
    refine ⟨fun i s hs => ⟨f s, by simp [hs], ha s, hm i s⟩, ?_⟩
    exact ⟨_, (List.append_nil _).symm, List.length_map _⟩
  cases step_cases hstep with
  | handleAccept _ ha =>
      refine ⟨handleAccept_rostered _ h ha, ?_, _, rfl, rfl⟩
      intro i s hs
      have hi := (List.getElem?_eq_some_iff.mp hs).1
      exact ⟨s, (List.getElem?_append_left hi).trans hs, rfl, moves_none rfl⟩
  | acceptFailed _ =>
      exact ⟨h, fun i s hs => ⟨s, hs, rfl, moves_none rfl⟩, _, (List.append_nil _).symm, rfl⟩
  | @completion j e session c _ he hs hc =>
      refine ⟨⟨?_, h.apart.set hs rfl rfl⟩, ?_, _, (List.append_nil _).symm, List.length_set⟩
      · have hset : rosterFrom 0 (srv.sessions.set j { session with connection := c }) =
            rosterFrom 0 srv.sessions := rosterFrom_set hs (by rfl) 0
        exact h.players.trans hset.symm
      · intro i s hi
        by_cases hji : j = i
        · subst hji
          obtain rfl : session = s := Option.some.inj (hs.symm.trans hi)
          have hlt := (List.getElem?_eq_some_iff.mp hs).1
          refine ⟨_, List.getElem?_set_self hlt, rfl, moves_some (if_pos rfl) ?_⟩
          rw [Session.step, if_pos he, hc]
          rfl
        · exact ⟨s, (List.getElem?_set_ne hji).trans hi, rfl, moves_none (if_neg hji)⟩
  | @tick now =>
      obtain ⟨hs, hr⟩ := tick_sessions env h now
      exact ⟨hr, hmap hs (fun s => s.tick_address env now) fun _ _ => moves_some rfl rfl⟩
  | @requestKickPlayer player reason =>
      obtain ⟨hs, hr⟩ := requestKickPlayer_sessions env h player reason
      refine ⟨hr, hmap hs (fun s => s.kickAt_address env player reason) fun i s => ?_⟩
      unfold Session.kickAt
      split_ifs with ha
      · exact moves_some (if_pos ha) rfl
      · exact moves_none (if_neg ha)
  | shutdown =>
      obtain ⟨hs, hr⟩ := shutdown_sessions env h
      exact ⟨hr, hmap hs (fun s => s.kick_address env _) fun _ _ => moves_some rfl rfl⟩

/-! ## Every run -/

variable {guard : VanillaMinecraftServer κ → ServerEvent → Prop}

theorem Rostered.of_run {es : List ServerEvent} (h : srv.Rostered)
    (run : GuardedRun (step env) guard srv es srv') : srv'.Rostered :=
  run.invariant (fun _ _ _ _ hstep h => (step_projects hstep h).1) h

theorem rostered_empty : Rostered ({} : VanillaMinecraftServer κ) := ⟨rfl, List.Pairwise.nil⟩

/-- A run of the server is a run of each session that it begins with. -/
theorem session_of_run {es : List ServerEvent} {i : PlayerId} (h : srv.Rostered)
    (run : GuardedRun (step env) guard srv es srv')
    (hs : srv.sessions[i]? = some session) :
    ∃ session', srv'.sessions[i]? = some session' ∧
      GuardedRun (Session.step env) Unguarded session
        (es.filterMap (ServerEvent.seen i session.address)) session' := by
  induction run generalizing session with
  | refl srv => exact ⟨session, hs, .refl _⟩
  | @cons _ _ _ e es _ hstep tail ih =>
      obtain ⟨hr, hall, _⟩ := step_projects hstep h
      obtain ⟨next, hnext, ha, hfirst⟩ := hall i session hs
      obtain ⟨session', hs', hrest⟩ := ih hr hnext
      refine ⟨session', hs', ?_⟩
      rw [ha] at hrest
      have hrun := hfirst.append hrest
      cases hseen : e.seen i session.address with
      | none => simpa [List.filterMap_cons, hseen] using hrun
      | some f => simpa [List.filterMap_cons, hseen] using hrun

/-- The address and the time of the accept that begins the session with this
index, and the events behind it. -/
def acceptance : PlayerId → List ServerEvent → Option (Address × Int × List ServerEvent)
  | _, [] => none
  | i, .handleAccept address created :: es =>
      match i with
      | 0 => some (address, created, es)
      | i + 1 => acceptance i es
  | i, _ :: es => acceptance i es

theorem acceptance_of_run {es : List ServerEvent} {i : Nat} (h : srv.Rostered)
    (run : GuardedRun (step env) guard srv es srv')
    (hs : srv'.sessions[srv.sessions.length + i]? = some session) :
    ∃ address created later, acceptance i es = some (address, created, later) ∧
      GuardedRun (Session.step env) Unguarded (Session.accepted address created)
        (later.filterMap (ServerEvent.seen (srv.sessions.length + i) address)) session := by
  induction run generalizing i with
  | refl srv =>
      have hlt := (List.getElem?_eq_some_iff.mp hs).1
      omega
  | @cons srv next _ e es _ hstep tail ih =>
      obtain ⟨hr, _, kept, hnew, hlen⟩ := step_projects hstep h
      cases e with
      | handleAccept address created =>
          have hnext : next.sessions.length = srv.sessions.length + 1 := by
            rw [hnew, List.length_append, hlen]
            rfl
          cases i with
          | zero =>
              have hfirst : next.sessions[srv.sessions.length]? =
                  some (Session.accepted address created) := by
                rw [hnew, ← hlen]
                exact List.getElem?_concat_length
              obtain ⟨session', hs', hrun⟩ := session_of_run hr tail hfirst
              obtain rfl : session' = session := Option.some.inj (hs'.symm.trans hs)
              exact ⟨address, created, es, rfl, hrun⟩
          | succ i =>
              have hindex : srv.sessions.length + (i + 1) = next.sessions.length + i := by omega
              rw [hindex] at hs ⊢
              exact ih hr hs
      | acceptFailed | completion _ _ | tick _ | requestKickPlayer _ _ | shutdown =>
          have hnext : next.sessions.length = srv.sessions.length := by
            rw [hnew, List.length_append, hlen]
            rfl
          rw [← hnext] at hs ⊢
          exact ih hr hs

/-- The session with index `i` behind a run from the start of the server. -/
theorem session_accepted {es : List ServerEvent} {i : PlayerId}
    (run : GuardedRun (step env) guard {} es srv) (hs : srv.sessions[i]? = some session) :
    ∃ address created later, acceptance i es = some (address, created, later) ∧
      GuardedRun (Session.step env) Unguarded (Session.accepted address created)
        (later.filterMap (ServerEvent.seen i address)) session := by
  have hi : ({} : VanillaMinecraftServer κ).sessions.length + i = i := Nat.zero_add i
  rw [← hi] at hs
  have hacc := acceptance_of_run rostered_empty run hs
  rwa [hi] at hacc

/-- In every run of the server that uses no deleted player, each session is
where its own steps take it from its accept through the events that it sees,
and the vector of players holds the live sessions in the order of their accepts. -/
theorem sessions_projected {es : List ServerEvent}
    (run : GuardedRun (step env) (NoLateTouch env) {} es srv) :
    srv.players = rosterFrom 0 srv.sessions ∧
      ∀ (i : PlayerId) (session : Session κ), srv.sessions[i]? = some session →
        ∃ address created later, acceptance i es = some (address, created, later) ∧
          GuardedRun (Session.step env) Unguarded (Session.accepted address created)
            (later.filterMap (ServerEvent.seen i address)) session := by
  refine ⟨(rostered_empty.of_run run).players, ?_⟩
  intro i session hs
  exact session_accepted run hs

/-- The second of two silent clients has joined later, and stays. -/
theorem sessions_projected_two : ∃ srv : VanillaMinecraftServer Byte,
    GuardedRun (step chainEnvironment) (NoLateTouch chainEnvironment) {}
        [.handleAccept 4096 0, .handleAccept 8192 10, .tick 21, .tick 22] srv ∧
      rosterFrom 0 srv.sessions = [some 1] ∧
      ∃ session, srv.sessions[0]? = some session ∧ session.live = false ∧
        GuardedRun (Session.step chainEnvironment) Unguarded (Session.accepted 4096 0)
          [.tick 21, .tick 22] session := by
  obtain ⟨srv, hrun, hplayers, session, hs, hlive⟩ := exists_guardedRun (step chainEnvironment)
    (NoLateTouch chainEnvironment) {}
    [.handleAccept 4096 0, .handleAccept 8192 10, .tick 21, .tick 22]
    (fun srv => srv.players = [some 1] ∧ ∃ session ∈ srv.sessions[0]?, session.live = false)
    (by decide +kernel)
  obtain ⟨hroster, hall⟩ := sessions_projected hrun
  obtain ⟨address, created, later, hacc, hsession⟩ := hall 0 session hs
  cases hacc
  exact ⟨srv, hrun, hroster.symm.trans hplayers, session, hs, hlive, hsession⟩

/-- The accept of a session and the events that it sees. -/
def experience (i : PlayerId) (es : List ServerEvent) :
    Option (Address × Int × List SessionEvent) :=
  (acceptance i es).map fun a => (a.1, a.2.1, a.2.2.filterMap (ServerEvent.seen i a.1))

/-- As long as no deleted player is used, what the other clients send, and when
they are accepted and leave, makes no difference to a session: where two runs of
the server give two sessions the same events to see, the sessions end in the
same state. -/
theorem session_isolated {es es' : List ServerEvent} {i i' : PlayerId} {session' : Session κ}
    (run : GuardedRun (step env) (NoLateTouch env) {} es srv)
    (run' : GuardedRun (step env) (NoLateTouch env) {} es' srv')
    (hs : srv.sessions[i]? = some session) (hs' : srv'.sessions[i']? = some session')
    (hsame : experience i es = experience i' es') : session = session' := by
  obtain ⟨address, created, later, hacc, hrun⟩ := session_accepted run hs
  obtain ⟨address', created', later', hacc', hrun'⟩ := session_accepted run' hs'
  rw [experience, experience, hacc, hacc'] at hsame
  simp only [Option.map_some, Option.some.injEq, Prod.mk.injEq] at hsame
  obtain ⟨rfl, rfl, hevents⟩ := hsame
  rw [hevents] at hrun
  exact hrun.unique hrun'

/-- A ping is answered alike whether or not another client is served. -/
theorem session_isolated_ping : ∃ (srv srv' : VanillaMinecraftServer Byte) (s s' : Session Byte),
    GuardedRun (step chainEnvironment) (NoLateTouch chainEnvironment) {}
        [.handleAccept 4096 0, .completion 0 (.readCompleted [0xFE, 1] chainAmbient), .tick 5]
        srv ∧
      GuardedRun (step chainEnvironment) (NoLateTouch chainEnvironment) {}
        [.handleAccept 64 0, .handleAccept 4096 0,
          .completion 0 (.readCompleted [0x0B] chainAmbient),
          .completion 1 (.readCompleted [0xFE, 1] chainAmbient),
          .requestKickPlayer (some 64) [0x62], .tick 5] srv' ∧
      srv.sessions[0]? = some s ∧ srv'.sessions[1]? = some s' ∧
      s.connection.status = .ping ∧ s = s' := by
  obtain ⟨srv, hrun, s, hs, hping⟩ := exists_guardedRun (step chainEnvironment)
    (NoLateTouch chainEnvironment) {}
    [.handleAccept 4096 0, .completion 0 (.readCompleted [0xFE, 1] chainAmbient), .tick 5]
    (fun srv => ∃ s ∈ srv.sessions[0]?, s.connection.status = .ping) (by decide +kernel)
  obtain ⟨srv', hrun', s', hs', _⟩ := exists_guardedRun (step chainEnvironment)
    (NoLateTouch chainEnvironment) {}
    [.handleAccept 64 0, .handleAccept 4096 0,
      .completion 0 (.readCompleted [0x0B] chainAmbient),
      .completion 1 (.readCompleted [0xFE, 1] chainAmbient),
      .requestKickPlayer (some 64) [0x62], .tick 5]
    (fun srv => ∃ s ∈ srv.sessions[1]?, s.live = true) (by decide +kernel)
  exact ⟨srv, srv', s, s', hrun, hrun', hs, hs', hping,
    session_isolated hrun hrun' hs hs' rfl⟩

end VanillaMinecraftServer

end CarpetSrv.Server
