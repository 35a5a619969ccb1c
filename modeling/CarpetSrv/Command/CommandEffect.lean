import CarpetSrv.Command.ConsoleSnapshot
import CarpetSrv.Server.SessionLifetime

/-!
# What the commands bring about

A command changes the server only through `requestKickPlayer` and `shutdown`,
so each run of the console beside the server is a run of the server. Behind
each step of `kickall` one more player of the copy is gone for good, whatever
the server does in between. `list` joins the names of the copy, and `stop` ends
both the console and the server.
-/

namespace CarpetSrv.Server.VanillaMinecraftServer

open Foundation Network Utils

variable {κ : Type} {env : Environment κ} {srv srv' : VanillaMinecraftServer κ}
  {p : PlayerPtr} {i : PlayerId} {es : List ServerEvent}

/-- The pointer is to a player that the server has begun a session for. -/
def Known (srv : VanillaMinecraftServer κ) (p : PlayerPtr) : Prop :=
  ∀ i ∈ p, ∃ s, srv.sessions[i]? = some s

/-- The player that the pointer was made for is deleted. -/
def Gone (srv : VanillaMinecraftServer κ) (p : PlayerPtr) : Prop :=
  ∀ i ∈ p, ∃ s, srv.sessions[i]? = some s ∧ s.live = false

theorem Rostered.known (h : srv.Rostered) (hp : p ∈ srv.players) : srv.Known p := by
  rintro i rfl
  obtain ⟨s, hs, _⟩ := h.mem_players.mp hp
  exact ⟨s, hs⟩

theorem Gone.not_mem (hp : srv.Gone (some i)) (h : srv.Rostered) : some i ∉ srv.players := by
  obtain ⟨s, hs, hdead⟩ := hp i rfl
  intro hmem
  obtain ⟨s', hs', hlive⟩ := h.mem_players.mp hmem
  obtain rfl : s = s' := Option.some.inj (hs.symm.trans hs')
  cases hdead.symm.trans hlive

theorem Known.of_run (hp : srv.Known p) (h : srv.Rostered)
    (run : GuardedRun (step env) Unguarded srv es srv') : srv'.Known p := by
  intro i hi
  obtain ⟨s, hs⟩ := hp i hi
  obtain ⟨s', hs', _⟩ := session_of_run h run hs
  exact ⟨s', hs'⟩

/-- A deleted player stays deleted. -/
theorem Gone.of_run (hp : srv.Gone p) (h : srv.Rostered)
    (run : GuardedRun (step env) Unguarded srv es srv') : srv'.Gone p := by
  intro i hi
  obtain ⟨s, hs, hdead⟩ := hp i hi
  obtain ⟨s', hs', hrun⟩ := session_of_run h run hs
  refine ⟨s', hs', ?_⟩
  exact hrun.invariant (I := fun s => s.live = false) (fun _ _ _ _ => Session.dead_step) hdead

/-- Behind `requestKickPlayer` at the address of a player, the player is gone. -/
theorem gone_requestKickPlayer (env : Environment κ) (h : srv.Rostered)
    (hp : srv.Known (some i)) (reason : UTF16String) :
    (srv.requestKickPlayer env (srv.addressOf (some i)) reason).Gone (some i) := by
  intro j hj
  obtain rfl : i = j := Option.some.inj hj
  obtain ⟨s, hs⟩ := hp i rfl
  have haddress : srv.addressOf (some i) = some s.address := by
    rw [addressOf, Option.bind_some, hs]
    rfl
  refine ⟨s.kick env reason, ?_, s.kick_live env reason⟩
  rw [(requestKickPlayer_sessions env h _ reason).1, List.getElem?_map, hs, haddress,
    Option.map_some, Session.kickAt, if_pos rfl]

end CarpetSrv.Server.VanillaMinecraftServer

namespace CarpetSrv.Command

open Foundation Network Packet Server Utils VanillaMinecraftServer

variable {κ : Type} {env : Environment κ}

/-- The listener takes a step of its command. -/
def CommandEvent.isProceed : CommandEvent → Bool
  | proceed => true
  | _ => false

namespace CommandHandler

variable {h h' h₀ : CommandHandler κ} {es es₀ : List CommandEvent}

/-! ## The console as a client of the server -/

/-- The server takes at most one step of its own in a step of the console. -/
theorem step_server {e : CommandEvent} (hstep : h.step env e = some h') :
    ∃ fs, GuardedRun (VanillaMinecraftServer.step env) Unguarded h.server fs h'.server := by
  have hone : ∀ f, h.server.step env f = some h'.server →
      ∃ fs, GuardedRun (VanillaMinecraftServer.step env) Unguarded h.server fs h'.server :=
    fun f hf => ⟨[f], .cons trivial hf (.refl _)⟩
  have hnone : h'.server = h.server →
      ∃ fs, GuardedRun (VanillaMinecraftServer.step env) Unguarded h.server fs h'.server := by
    intro hsame
    rw [hsame]
    exact ⟨[], .refl _⟩
  cases e with
  | commandListener command =>
      simp only [CommandHandler.step] at hstep
      split_ifs at hstep
      cases hstep
      apply hnone
      unfold commandListener
      dsimp only
      split_ifs <;> rfl
  | server f =>
      obtain ⟨srv, hsrv, rfl⟩ := Option.map_eq_some_iff.mp hstep
      exact hone f hsrv
  | proceed =>
      simp only [CommandHandler.step, proceed] at hstep
      split at hstep
      case h_1 => cases hstep
      case h_2 =>
        cases hstep
        exact hone .shutdown rfl
      case h_3 player rest _ =>
        cases hstep
        cases player with
        | none => exact hnone rfl
        | some i => exact hone (.requestKickPlayer _ _) rfl
      case h_4 =>
        cases hstep
        exact hnone rfl
      case h_5 player rest _ _ =>
        cases hstep
        cases player <;> exact hnone rfl
      case h_6 =>
        cases hstep
        exact hnone rfl

/-- A run of the console beside the server is a run of the server. -/
theorem server_of_run (run : GuardedRun (step env) Unguarded h es h') :
    ∃ fs, GuardedRun (VanillaMinecraftServer.step env) Unguarded h.server fs h'.server := by
  induction run with
  | refl h => exact ⟨[], .refl _⟩
  | cons _ hstep _ ih =>
      obtain ⟨fs, hfirst⟩ := step_server hstep
      obtain ⟨gs, hrest⟩ := ih
      exact ⟨fs ++ gs, hfirst.append hrest⟩

theorem rostered_of_run (run : GuardedRun (step env) Unguarded {} es h) : h.server.Rostered := by
  obtain ⟨fs, hrun⟩ := server_of_run run
  exact rostered_empty.of_run hrun

/-! ## `kickall` -/

/-- `kickall` has passed on the first `k` players of the copy, and they are
gone, or it is done with all of them. -/
def Removed (players : List PlayerPtr) (k : Nat) (h : CommandHandler κ) : Prop :=
  (h.listener = .kicking (players.drop k) ∧ (∀ p ∈ players, h.server.Known p) ∧
    ∀ p ∈ players.take k, h.server.Gone p) ∨
  ∀ p ∈ players, h.server.Gone p

theorem Removed.gone {players : List PlayerPtr} {k : Nat} (h : Removed players k h') :
    ∀ p ∈ players.take k, h'.server.Gone p := by
  rcases h with ⟨_, _, hgone⟩ | hall
  · exact hgone
  · exact fun p hp => hall p (List.mem_of_mem_take hp)

/-- The listener is where it was, and the server has taken steps. -/
theorem Removed.congr {players : List PlayerPtr} {k : Nat} {fs : List ServerEvent}
    (hr : Removed players k h) (hroster : h.server.Rostered) (hl : h'.listener = h.listener)
    (run : GuardedRun (VanillaMinecraftServer.step env) Unguarded h.server fs h'.server) :
    Removed players k h' := by
  rcases hr with ⟨hlistener, hknown, hgone⟩ | hall
  · exact .inl ⟨hl.trans hlistener, fun p hp => (hknown p hp).of_run hroster run,
      fun p hp => (hgone p hp).of_run hroster run⟩
  · exact .inr fun p hp => (hall p hp).of_run hroster run

/-- One step of `kickall` removes the next player of the copy. -/
theorem Removed.proceed {players : List PlayerPtr} {k : Nat} (hr : Removed players k h)
    (hroster : h.server.Rostered) (hstep : h.proceed env = some h') :
    Removed players (k + 1) h' := by
  obtain ⟨fs, hrun⟩ := step_server (show h.step env .proceed = some h' from hstep)
  rcases hr with ⟨hlistener, hknown, hgone⟩ | hall
  · have hgone' : ∀ p ∈ players.take k, h'.server.Gone p :=
      fun p hp => (hgone p hp).of_run hroster hrun
    cases hdrop : players.drop k with
    | nil =>
        have htake : players.take k = players :=
          List.take_of_length_le (List.drop_eq_nil_iff.mp hdrop)
        rw [htake] at hgone'
        exact .inr hgone'
    | cons player rest =>
        have hget : players[k]? = some player := by
          rw [← List.head?_drop, hdrop]
          rfl
        have hrest : players.drop (k + 1) = rest := by
          rw [← List.drop_drop, hdrop]
          rfl
        have hmem : player ∈ players := List.mem_of_getElem? hget
        rw [CommandHandler.proceed, hlistener, hdrop] at hstep
        cases hstep
        refine .inl ⟨?_, fun p hp => (hknown p hp).of_run hroster hrun, ?_⟩
        · rw [hrest]
          cases player <;> rfl
        · intro p hp
          rw [List.take_add_one, hget] at hp
          rcases List.mem_append.mp hp with hold | hnew
          · exact hgone' p hold
          · obtain rfl : p = player := List.mem_singleton.mp hnew
            cases p with
            | none => exact nofun
            | some i => exact gone_requestKickPlayer env hroster (hknown _ hmem) _
  · exact .inr fun p hp => (hall p hp).of_run hroster hrun

theorem Removed.step {players : List PlayerPtr} {k : Nat} {e : CommandEvent}
    (hr : Removed players k h) (hroster : h.server.Rostered) (hstep : h.step env e = some h') :
    Removed players (if e.isProceed = true then k + 1 else k) h' := by
  obtain ⟨fs, hrun⟩ := step_server hstep
  cases e with
  | proceed => exact hr.proceed hroster hstep
  | server f =>
      obtain ⟨srv, _, rfl⟩ := Option.map_eq_some_iff.mp hstep
      exact hr.congr hroster rfl hrun
  | commandListener command =>
      simp only [CommandHandler.step] at hstep
      split_ifs at hstep with hc
      -- No new command begins before `kickall` is done.
      rcases hr with ⟨hlistener, _, _⟩ | hall
      · cases hlistener.symm.trans hc.2
      · exact .inr fun p hp => (hall p hp).of_run hroster hrun

/-- Reading `kickall` begins with all players of the copy still to be removed. -/
theorem removed_kickall (hroster : h.server.Rostered) :
    Removed h.server.players 0 (h.commandListener (literal ("kickall".toList))) := by
  have hne : literal ("kickall".toList) ≠ literal ("stop".toList) := by decide
  rw [commandListener, if_neg hne, if_pos rfl]
  dsimp only
  split_ifs with hempty
  · have hnil : h.server.players = [] := List.length_eq_zero_iff.mp hempty
    right
    rw [hnil]
    exact nofun
  · left
    exact ⟨rfl, fun p hp => hroster.known hp, nofun⟩

/-- In every run behind `kickall`, whatever the server does in between, the
first `k` players that were there when the line was read are deleted and off
the list once the listener has taken `k` steps. -/
theorem kickall_removes (start : GuardedRun (step env) Unguarded {} es₀ h₀)
    (run : GuardedRun (step env) Unguarded h₀
      (.commandListener (literal ("kickall".toList)) :: es) h) :
    ∀ i, some i ∈ h₀.server.players.take (es.countP (·.isProceed)) →
      some i ∉ h.server.players ∧
        ∃ s, h.server.sessions[i]? = some s ∧ s.live = false := by
  cases run with
  | cons _ hread hrest =>
      have hroster := rostered_of_run start
      obtain ⟨fs, hfirst⟩ := step_server hread
      have hroster' := hroster.of_run hfirst
      simp only [CommandHandler.step] at hread
      split_ifs at hread
      cases hread
      have hremoved : h.server.Rostered ∧
          Removed h₀.server.players (es.countP (·.isProceed)) h := by
        refine hrest.invariant_count
          (I := fun k h => h.server.Rostered ∧ Removed h₀.server.players k h)
          CommandEvent.isProceed ?_ ⟨hroster', removed_kickall hroster⟩
        rintro k h e h' _ hstep ⟨hroster, hr⟩
        obtain ⟨gs, hserver⟩ := step_server hstep
        exact ⟨hroster.of_run hserver, hr.step hroster hstep⟩
      intro i hi
      have hgone := hremoved.2.gone _ hi
      exact ⟨hgone.not_mem hremoved.1, hgone i rfl⟩

/-- Two players are kicked while a third one joins at the address of the first
one, and the third one stays. -/
theorem kickall_removes_two : ∃ h₀ h : CommandHandler Byte,
    GuardedRun (step chainEnvironment) Unguarded {}
        [.server (.handleAccept 4096 0), .server (.handleAccept 8192 0)] h₀ ∧
      GuardedRun (step chainEnvironment) Unguarded h₀
        (.commandListener (literal ("kickall".toList)) ::
          [.proceed, .server (.handleAccept 4096 1), .server (.tick 1), .proceed, .proceed]) h ∧
      h.server.players = [some 2] ∧ some 0 ∉ h.server.players ∧ some 1 ∉ h.server.players := by
  obtain ⟨h₀, h, start, run, hplayers, hleft⟩ := exists_guardedRun_append
    (step chainEnvironment) Unguarded ({} : CommandHandler Byte)
    [.server (.handleAccept 4096 0), .server (.handleAccept 8192 0)]
    (.commandListener (literal ("kickall".toList)) ::
      [.proceed, .server (.handleAccept 4096 1), .server (.tick 1), .proceed, .proceed])
    (fun h => h.server.players = [some 0, some 1]) (fun h => h.server.players = [some 2])
    (by decide +kernel)
  have hremoved := kickall_removes start run
  rw [hplayers] at hremoved
  exact ⟨h₀, h, start, run, hleft, (hremoved 0 (by decide)).1, (hremoved 1 (by decide)).1⟩

/-! ## `list` -/

/-- The name that `list` adds for a pointer of the copy. -/
def nameOf (srv : VanillaMinecraftServer κ) (p : PlayerPtr) : CppString := p.elim [] (getName srv)

def separator : CppString := literal [',', ' ']

/-- The names of the players of a server, joined. -/
def joinedNames (srv : VanillaMinecraftServer κ) (ps : List PlayerPtr) : CppString :=
  separator.intercalate (ps.map (nameOf srv))

/-- The answer to `list` on a server with players. -/
def listReply (srv : VanillaMinecraftServer κ) : CppString :=
  literal ("There are ".toList) ++ toString srv.players.length ++
    literal (" players online: ".toList) ++ joinedNames srv srv.players

/-- The event deletes no player that `list` has still to name. -/
def KeepsListed (h : CommandHandler κ) : CommandEvent → Prop
  | .server (.tick _) => ∀ p ∈ h.listener.toName, ∀ i ∈ p, h.server.isAlive i = true
  | .server (.requestKickPlayer player _) =>
      ∀ p ∈ h.listener.toName, h.server.addressOf p ≠ player
  | .server .shutdown => h.listener.toName = []
  | _ => True

instance (h : CommandHandler κ) (e : CommandEvent) : Decidable (KeepsListed h e) :=
  match e with
  | .server (.tick _) => inferInstanceAs (Decidable (∀ p ∈ h.listener.toName, ∀ i ∈ p, _))
  | .server (.requestKickPlayer _ _) => inferInstanceAs (Decidable (∀ p ∈ h.listener.toName, _))
  | .server .shutdown => inferInstanceAs (Decidable (h.listener.toName = []))
  | .server (.handleAccept _ _) | .server .acceptFailed | .server (.completion _ _)
  | .commandListener _ | .proceed => .isTrue trivial

/-- The event deletes no player that `list` has still to name, and renames none. -/
def KeepsNames (env : Environment κ) (h : CommandHandler κ) (e : CommandEvent) : Prop :=
  KeepsListed h e ∧ ∀ h' ∈ h.step env e, ∀ p ∈ h.listener.toName,
    nameOf h'.server p = nameOf h.server p

instance (h : CommandHandler κ) (e : CommandEvent) : Decidable (KeepsNames env h e) :=
  inferInstanceAs (Decidable (_ ∧ ∀ h' ∈ h.step env e, _))

theorem joinedNames_cons (srv : VanillaMinecraftServer κ) (p : PlayerPtr) (ps : List PlayerPtr) :
    joinedNames srv (p :: ps) =
      nameOf srv p ++ (if ps = [] then [] else separator) ++ joinedNames srv ps := by
  cases ps with
  | nil => simp [joinedNames]
  | cons q ps => simp [joinedNames, List.append_assoc]

/-- `list` has still to name `rest`. What it has joined so far belongs to the
names on the server `srv`, which are unchanged. -/
structure Naming (srv : VanillaMinecraftServer κ) (before : List CppString)
    (rest : List PlayerPtr) (joined : CppString) (h : CommandHandler κ) : Prop where
  listener : h.listener = .listing rest joined
  snapshot : h.playersSnapshot = srv.players
  messages : h.messages = before
  names : ∀ p ∈ rest, nameOf h.server p = nameOf srv p
  joins : joined ++ joinedNames srv rest = joinedNames srv srv.players

/-- `list` has named `k` players, or it has answered. -/
def Listed (srv : VanillaMinecraftServer κ) (before : List CppString) (k : Nat)
    (h : CommandHandler κ) : Prop :=
  (∃ rest joined, Naming srv before rest joined h ∧ rest.length + k = srv.players.length) ∨
  before ++ [listReply srv] <+: h.messages

theorem step_messages {e : CommandEvent} (hstep : h.step env e = some h') :
    h.messages <+: h'.messages := by
  cases e with
  | commandListener command =>
      simp only [CommandHandler.step] at hstep
      split_ifs at hstep
      cases hstep
      unfold commandListener
      dsimp only
      split_ifs <;> simp [printMessage]
  | server e =>
      obtain ⟨srv, _, rfl⟩ := Option.map_eq_some_iff.mp hstep
      exact List.prefix_rfl
  | proceed =>
      simp only [CommandHandler.step, proceed] at hstep
      split at hstep
      case h_1 => cases hstep
      case h_2 =>
        cases hstep
        exact List.prefix_rfl
      case h_3 player rest _ =>
        cases hstep
        cases player <;> exact List.prefix_rfl
      case h_4 =>
        cases hstep
        exact List.prefix_append _ _
      case h_5 player rest _ _ =>
        cases hstep
        cases player <;> exact List.prefix_rfl
      case h_6 =>
        cases hstep
        exact List.prefix_append _ _

variable {srv : VanillaMinecraftServer κ} {before : List CppString} {rest : List PlayerPtr}
  {joined : CppString} {k : Nat}

/-- One step of `list` adds the next name. -/
theorem Naming.next {player : PlayerPtr} (hn : Naming srv before (player :: rest) joined h)
    (hstep : h.proceed env = some h') :
    ∃ joined', Naming srv before rest joined' h' := by
  have hname := hn.names player List.mem_cons_self
  have hjoins := hn.joins
  rw [joinedNames_cons, ← List.append_assoc, ← List.append_assoc, ← hname] at hjoins
  have hnames : ∀ p ∈ rest, nameOf h.server p = nameOf srv p :=
    fun p hp => hn.names p (List.mem_cons_of_mem _ hp)
  rw [CommandHandler.proceed, hn.listener] at hstep
  cases hstep
  cases player with
  | none =>
      refine ⟨_, rfl, hn.snapshot, hn.messages, hnames, ?_⟩
      rw [← hjoins, nameOf, Option.elim_none, List.append_nil]
      rfl
  | some i => exact ⟨_, rfl, hn.snapshot, hn.messages, hnames, hjoins⟩

/-- The last step of `list` answers with all names. -/
theorem Naming.answer (hn : Naming srv before [] joined h) (hstep : h.proceed env = some h') :
    h'.messages = before ++ [listReply srv] := by
  have hjoined : joined = joinedNames srv srv.players := by
    have hjoins := hn.joins
    rwa [show joinedNames srv [] = [] from rfl, List.append_nil] at hjoins
  rw [CommandHandler.proceed, hn.listener] at hstep
  cases hstep
  rw [printMessage, hn.messages, hn.snapshot, hjoined, listReply]

theorem Listed.step {e : CommandEvent} (hl : Listed srv before k h) (hg : KeepsNames env h e)
    (hstep : h.step env e = some h') :
    Listed srv before (if e.isProceed = true then k + 1 else k) h' := by
  rcases hl with ⟨rest, joined, hn, hk⟩ | hanswered
  · cases e with
    | commandListener command =>
        simp only [CommandHandler.step] at hstep
        split_ifs at hstep with hc
        cases hn.listener.symm.trans hc.2
    | server f =>
        have hkept := hg.2 h' hstep
        rw [hn.listener] at hkept
        obtain ⟨next, _, rfl⟩ := Option.map_eq_some_iff.mp hstep
        left
        exact ⟨rest, joined, ⟨hn.listener, hn.snapshot, hn.messages,
          fun p hp => (hkept p hp).trans (hn.names p hp), hn.joins⟩, hk⟩
    | proceed =>
        cases rest with
        | nil =>
            right
            have hanswer := hn.answer hstep
            exact hanswer ▸ List.prefix_rfl
        | cons player rest =>
            left
            obtain ⟨joined', hnext⟩ := hn.next hstep
            have hcount : rest.length + (k + 1) = srv.players.length := by
              rw [← hk, List.length_cons]
              omega
            exact ⟨rest, joined', hnext, hcount⟩
  · exact .inr (hanswered.trans (step_messages hstep))

/-- In every run behind `list` in which the server deletes and renames no player
still to be named, the answer holds the number of players at the time of the
line and the names of all of them in the order of the vector. -/
theorem list_answers
    (run : GuardedRun (step env) (KeepsNames env) h₀
      (.commandListener (literal ("list".toList)) :: es) h)
    (hsome : h₀.server.players ≠ [])
    (hlong : h₀.server.players.length < es.countP (·.isProceed)) :
    h₀.messages ++ [listReply h₀.server] <+: h.messages := by
  cases run with
  | cons _ hread hrest =>
      simp only [CommandHandler.step] at hread
      split_ifs at hread
      cases hread
      have hstop : literal ("list".toList) ≠ literal ("stop".toList) := by decide
      have hkick : literal ("list".toList) ≠ literal ("kickall".toList) := by decide
      have hlen : h₀.server.players.length ≠ 0 := List.length_eq_zero_iff.not.mpr hsome
      have hbegun : Naming h₀.server h₀.messages h₀.server.players []
          (h₀.commandListener (literal ("list".toList))) := by
        rw [commandListener, if_neg hstop, if_neg hkick, if_pos rfl]
        dsimp only
        rw [if_neg hlen]
        exact ⟨rfl, rfl, rfl, fun _ _ => rfl, rfl⟩
      have hlisted : Listed h₀.server h₀.messages 0
          (h₀.commandListener (literal ("list".toList))) := .inl ⟨_, _, hbegun, rfl⟩
      have hdone : Listed h₀.server h₀.messages (es.countP (·.isProceed)) h :=
        hrest.invariant_count _ (fun _ _ _ _ hg hstep hl => hl.step hg hstep) hlisted
      rcases hdone with ⟨rest, joined, _, hk⟩ | hanswered
      · omega
      · exact hanswered

/-- The second of two players has given a name. A third one joins meanwhile. -/
theorem list_answers_two : ∃ h₀ h : CommandHandler Byte,
    GuardedRun (step chainEnvironment) (KeepsNames chainEnvironment) h₀
        (.commandListener (literal ("list".toList)) ::
          [.proceed, .server (.handleAccept 64 1), .server (.tick 1), .proceed, .proceed]) h ∧
      listReply h₀.server = literal ("There are 2 players online: , A".toList) ∧
      h₀.messages ++ [listReply h₀.server] <+: h.messages := by
  obtain ⟨h₀, h, _, run, ⟨hplayers, hreply⟩, _⟩ := exists_guardedRun_append
    (step chainEnvironment) (KeepsNames chainEnvironment) ({} : CommandHandler Byte)
    [.server (.handleAccept 4096 0), .server (.handleAccept 8192 0),
      .server (.completion 1
        (.readCompleted (ClientPacket.clientProtocol 51 [0x41] [] 0).encode chainAmbient))]
    (.commandListener (literal ("list".toList)) ::
      [.proceed, .server (.handleAccept 64 1), .server (.tick 1), .proceed, .proceed])
    (fun h => h.server.players = [some 0, some 1] ∧
      listReply h.server = literal ("There are 2 players online: , A".toList))
    (fun h => h.running = true) (by decide +kernel)
  have hsome : h₀.server.players ≠ [] := by simp [hplayers]
  have hlong : h₀.server.players.length <
      [CommandEvent.proceed, .server (.handleAccept 64 1), .server (.tick 1), .proceed,
        .proceed].countP (·.isProceed) := by
    rw [hplayers]
    decide
  exact ⟨h₀, h, run, hreply, list_answers run hsome hlong⟩

/-! ## `stop` -/

/-- The line "stop" has been read. -/
structure Stopping (h : CommandHandler κ) : Prop where
  roster : h.server.Rostered
  running : h.running = false
  listener : h.listener = .stopping

/-- The console reads no more lines, and the server is down. -/
structure Halted (h : CommandHandler κ) : Prop where
  running : h.running = false
  listener : h.listener = .waiting
  down : h.server.Down
  dead : ∀ s ∈ h.server.sessions, s.live = false

theorem Halted.step {e : CommandEvent} (hh : Halted h) (hstep : h.step env e = some h') :
    h' = h := by
  cases e with
  | commandListener command =>
      simp only [CommandHandler.step] at hstep
      split_ifs at hstep with hc
      cases hh.running.symm.trans hc.1
  | proceed =>
      rw [CommandHandler.step, proceed, hh.listener] at hstep
      cases hstep
  | server e =>
      obtain ⟨srv, hsrv, rfl⟩ := Option.map_eq_some_iff.mp hstep
      rw [hh.down.step hsrv]

theorem Stopping.proceed (hh : Stopping h) (hstep : h.proceed env = some h') : Halted h' := by
  rw [CommandHandler.proceed, hh.listener] at hstep
  cases hstep
  refine ⟨hh.running, rfl, ⟨rfl, rfl, rfl⟩, ?_⟩
  intro s hs
  rw [(shutdown_sessions env hh.roster).1] at hs
  obtain ⟨s₀, _, rfl⟩ := List.mem_map.mp hs
  exact s₀.kick_live env _

/-- Behind "stop", the next step of the listener halts the console and the server. -/
theorem Stopping.of_run (hh : Stopping h)
    (run : GuardedRun (CommandHandler.step env) Unguarded h es h') (hp : .proceed ∈ es) :
    Halted h' := by
  induction run with
  | refl h => cases hp
  | @cons h m _ e es _ hstep tail ih =>
      obtain ⟨fs, hserver⟩ := step_server hstep
      cases e with
      | commandListener command =>
          simp only [CommandHandler.step] at hstep
          split_ifs at hstep with hc
          cases hh.running.symm.trans hc.1
      | server f =>
          have hmem : .proceed ∈ es := by simpa using hp
          obtain ⟨srv, _, rfl⟩ := Option.map_eq_some_iff.mp hstep
          exact ih ⟨hh.roster.of_run hserver, hh.running, hh.listener⟩ hmem
      | proceed =>
          have hhalted : Halted m := hh.proceed hstep
          refine tail.invariant (I := Halted) ?_ hhalted
          intro _ f _ _ hstep hh
          rwa [hh.step hstep]

/-- In every run behind "stop" in which the listener has gone on, the listener
has ended, every player is deleted, the server is down, and no event changes
anything any more. -/
theorem stop_final (start : GuardedRun (step env) Unguarded {} es₀ h₀)
    (run : GuardedRun (step env) Unguarded h₀
      (.commandListener (literal ("stop".toList)) :: es) h) (hp : .proceed ∈ es) :
    h.running = false ∧ h.listener = .waiting ∧ h.server.Down ∧
      (∀ s ∈ h.server.sessions, s.live = false) ∧ ∀ e h', h.step env e = some h' → h' = h := by
  cases run with
  | cons _ hread hrest =>
      simp only [CommandHandler.step] at hread
      split_ifs at hread
      cases hread
      have hroster : h₀.server.Rostered := rostered_of_run start
      have hstopping : Stopping (h₀.commandListener (literal ("stop".toList))) :=
        ⟨hroster, rfl, rfl⟩
      have hhalted := hstopping.of_run hrest hp
      exact ⟨hhalted.running, hhalted.listener, hhalted.down, hhalted.dead,
        fun _ _ => hhalted.step⟩

/-- A player joins between the line and the shutdown, and is deleted by it. -/
theorem stop_final_joined : ∃ h₀ h : CommandHandler Byte,
    GuardedRun (step chainEnvironment) Unguarded {} [.server (.handleAccept 4096 0)] h₀ ∧
      GuardedRun (step chainEnvironment) Unguarded h₀
        (.commandListener (literal ("stop".toList)) ::
          [.server (.handleAccept 8192 1), .proceed, .server (.tick 1)]) h ∧
      h.server.sessions.length = 2 ∧ h.running = false ∧ h.server.Down ∧
      ∀ s ∈ h.server.sessions, s.live = false := by
  obtain ⟨h₀, h, start, run, _, hlen⟩ := exists_guardedRun_append (step chainEnvironment)
    Unguarded ({} : CommandHandler Byte) [.server (.handleAccept 4096 0)]
    (.commandListener (literal ("stop".toList)) ::
      [.server (.handleAccept 8192 1), .proceed, .server (.tick 1)])
    (fun h => h.server.players = [some 0]) (fun h => h.server.sessions.length = 2)
    (by decide +kernel)
  have hmem : CommandEvent.proceed ∈
      [.server (.handleAccept 8192 1), .proceed, .server (.tick 1)] := by simp
  obtain ⟨hended, _, hdown, hdead, _⟩ := stop_final start run hmem
  exact ⟨h₀, h, start, run, hlen, hended, hdown, hdead⟩

end CommandHandler

end CarpetSrv.Command
