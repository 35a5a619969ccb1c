import CarpetSrv.Network.RunInvariant
import CarpetSrv.Server.VanillaMinecraftServer

/-!
# Lifetime of the players

A connection keeps its player pointer when the server deletes the player, and
its handlers go on to use it. While the server itself acts on a player, the
player is live. A deleted player is used exactly by the late packets whose
handlers touch it.
-/

namespace CarpetSrv.Server

open Foundation Network Packet Utils

variable {κ : Type}

/-- The handler of the packet dereferences the player pointer. -/
def TouchesPlayer : HandledPacket → Prop
  | .clientProtocol _ | .clientInfo _ | .playerPosition _ => True
  | .serverPing _ | .sharedKey _ | .keepAlive => False

instance : ∀ p : HandledPacket, Decidable (TouchesPlayer p)
  | .clientProtocol _ | .clientInfo _ | .playerPosition _ => .isTrue trivial
  | .serverPing _ | .sharedKey _ | .keepAlive => .isFalse id

/-! ## Uses of the player by one connection -/

section Connection

open Connection VanillaMinecraftServer

variable {env : Environment κ} {c c' : Connection κ}

theorem useCount_eq {c c' : Connection κ} (h : observe playerUse c' = observe playerUse c) :
    useCount c' = useCount c := congrArg List.length h

/-- Handlers of packets that touch no player use none. -/
theorem uses_readClosed (env : Environment κ) (base : List Unit) :
    ReadClosed env (fun _ p _ => ¬ TouchesPlayer p) fun c => observe playerUse c = base where
  readBuffer _ h := h
  pendingRead _ h := h
  decryptCtx _ _ h := h
  emit {c e} he h := by
    refine (observe_emit_none ?_ c).trans h
    cases e <;> first | rfl | cases he
  pinged _ _ h := by
    rw [observe_pinged env _ fun _ _ => rfl, h]
    simp [playerUse]
  unseeded _ hq _ _ := absurd trivial hq
  greeted _ hq _ _ := absurd trivial hq
  badKey _ _ _ h := (observe_tokenChecked _ rfl _).trans h
  loggedIn _ _ _ h := by
    rw [observe_loggedIn env _ fun _ _ => rfl, observe_tokenChecked _ rfl, h]
    simp [playerUse]
  informed hq _ := absurd trivial hq
  keptAlive _ h := (observe_emit_none rfl _).trans h
  positioned hq _ := absurd trivial hq

/-- A completion that decodes no packet touching the player does not use it. -/
theorem useCount_completion {e : ConnectionEvent} (he : isCompletion e = true)
    (hstep : step env c e = some c')
    (hq : EachRead (fun _ p _ => ¬ TouchesPlayer p) env c e) : useCount c' = useCount c := by
  apply useCount_eq
  cases step_cases hstep with
  | readCompleted _ _ => exact (uses_readClosed env _).readCompleted hq rfl
  | readFailed _ => rfl
  | writeCompleted _ _ =>
      exact (observe_handleWrite rfl rfl _ _ _).trans (observe_emit_none rfl _)
  | writeFailed _ => exact observe_handleWrite rfl rfl _ _ _
  | handleConnection _ _ => cases he
  | sendKeepAlive => cases he
  | kickPlayer => cases he
  | addPacketToQueue => cases he

end Connection

/-! ## Players that the server holds -/

namespace VanillaMinecraftServer

variable {env : Environment κ} {srv srv' : VanillaMinecraftServer κ} {ps qs : List PlayerPtr}
  {i : PlayerId}

def IsLive (srv : VanillaMinecraftServer κ) (i : PlayerId) : Prop :=
  ∃ session, srv.sessions[i]? = some session ∧ session.live = true

/-- The pointers are distinct, and each of them is to a live player. -/
structure Holds (srv : VanillaMinecraftServer κ) (ps : List PlayerPtr) : Prop where
  nodup : ps.Nodup
  live : ∀ p ∈ ps, ∃ i, p = some i ∧ srv.IsLive i

/-- Every player that was used was live. -/
def UsesLive (srv : VanillaMinecraftServer κ) : Prop := ∀ use ∈ srv.uses, use.2 = true

theorem isLive_setConnection {session : Session κ} (hs : srv.sessions[i]? = some session)
    (c : Connection κ) {j : PlayerId} (h : srv.IsLive j) :
    (srv.setConnection i session c).IsLive j := by
  obtain ⟨other, hj, hlive⟩ := h
  have hi := (List.getElem?_eq_some_iff.mp hs).1
  by_cases hij : i = j
  · subst hij
    obtain rfl : session = other := Option.some.inj (hs.symm.trans hj)
    exact ⟨_, List.getElem?_set_self hi, hlive⟩
  · exact ⟨other, (List.getElem?_set_ne hij).trans hj, hlive⟩

theorem isLive_deletePlayer {j : PlayerId} (hij : i ≠ j) (h : srv.IsLive j) :
    (srv.deletePlayer i).IsLive j := by
  obtain ⟨session, hj, hlive⟩ := h
  refine ⟨session, ?_, hlive⟩
  simp [deletePlayer, hij, hj]

theorem Holds.mono (h : srv.Holds ps) (hl : ∀ j, srv.IsLive j → srv'.IsLive j) :
    srv'.Holds ps := by
  refine ⟨h.nodup, ?_⟩
  intro p hp
  obtain ⟨j, hj, hlive⟩ := h.live p hp
  exact ⟨j, hj, hl j hlive⟩

theorem Holds.deletePlayer (h : srv.Holds ps) (hi : some i ∉ ps) :
    (srv.deletePlayer i).Holds ps := by
  refine ⟨h.nodup, ?_⟩
  intro p hp
  obtain ⟨j, rfl, hlive⟩ := h.live p hp
  refine ⟨j, rfl, isLive_deletePlayer ?_ hlive⟩
  rintro rfl
  exact hi hp

theorem usesLive_setConnection {session : Session κ} {c : Connection κ} (h : srv.UsesLive)
    (hl : session.live = true ∨ useCount c = useCount session.connection) :
    (srv.setConnection i session c).UsesLive := by
  intro use huse
  rcases List.mem_append.mp huse with hold | hnew
  · exact h use hold
  · obtain ⟨hne, rfl⟩ := List.mem_replicate.mp hnew
    rcases hl with hlive | hcount
    · exact hlive
    · rw [hcount, Nat.sub_self] at hne
      exact absurd rfl hne

/-- Calling a method of the connection of a live player keeps everything. -/
theorem onConnection_live (f : Connection κ → Connection κ) (h : srv.IsLive i)
    (hu : srv.UsesLive) : (srv.onConnection i f).UsesLive ∧
      ∀ ps, srv.Holds ps → (srv.onConnection i f).Holds ps := by
  obtain ⟨session, hs, hlive⟩ := h
  simp only [onConnection, hs]
  exact ⟨usesLive_setConnection hu (.inl hlive),
    fun ps hps => hps.mono fun _ => isLive_setConnection hs _⟩

theorem kickAndDelete_live (reason : UTF16String) {p : PlayerPtr} (h : srv.Holds (p :: ps))
    (hu : srv.UsesLive) : (srv.kickAndDelete env reason p).UsesLive ∧
      (srv.kickAndDelete env reason p).Holds ps := by
  obtain ⟨i, rfl, hlive⟩ := h.live p List.mem_cons_self
  obtain ⟨hp, hps⟩ := List.nodup_cons.mp h.nodup
  have hrest : srv.Holds ps := ⟨hps, fun q hq => h.live q (List.mem_cons_of_mem _ hq)⟩
  obtain ⟨huse, hhold⟩ := onConnection_live (Connection.disconnectWith env reason) hlive hu
  exact ⟨huse, (hhold ps hrest).deletePlayer hp⟩

/-! ## Steps of the server -/

/-- The vector holds live players, and every use was one of a live player. -/
structure Sound (srv : VanillaMinecraftServer κ) : Prop where
  holds : srv.Holds srv.players
  uses : srv.UsesLive

theorem foldl_kickAndDelete_live (reason : UTF16String) (h : srv.Holds ps) (hu : srv.UsesLive) :
    (ps.foldl (fun srv p => srv.kickAndDelete env reason p) srv).UsesLive := by
  induction ps generalizing srv with
  | nil => exact hu
  | cons p ps ih =>
      obtain ⟨huse, hrest⟩ := kickAndDelete_live reason h hu
      exact ih hrest huse

theorem shutdown_sound (h : srv.Sound) : (srv.shutdown env).Sound :=
  ⟨⟨List.nodup_nil, nofun⟩, foldl_kickAndDelete_live _ h.holds h.uses⟩

theorem requestKickLoop_sound (player : Option Address) (reason : UTF16String)
    (hplayers : srv.players = qs ++ ps) (h : srv.Sound) :
    (requestKickLoop env player reason srv qs ps).Sound := by
  induction ps generalizing qs with
  | nil => exact h
  | cons p ps ih =>
      rw [requestKickLoop]
      split_ifs
      · have hperm : srv.Holds (p :: (qs ++ ps)) := by
          have hheld := h.holds
          rw [hplayers] at hheld
          exact ⟨List.perm_middle.nodup hheld.nodup,
            fun q hq => hheld.live q (List.perm_middle.symm.mem_iff.mp hq)⟩
        obtain ⟨huse, hrest⟩ := kickAndDelete_live reason hperm h.uses
        exact ⟨⟨hrest.nodup, hrest.live⟩, huse⟩
      · exact ih (by rw [hplayers, List.append_assoc]; rfl)

theorem tickLoop_sound (now : Int) (h : srv.Holds (qs ++ ps)) (hu : srv.UsesLive) :
    (tickLoop env now srv qs ps).Sound := by
  induction ps generalizing srv qs with
  | nil =>
      rw [List.append_nil] at h
      exact ⟨⟨h.nodup, h.live⟩, hu⟩
  | cons p ps ih =>
      obtain ⟨i, rfl, hlive⟩ := h.live p (List.mem_append_right _ List.mem_cons_self)
      rw [tickLoop]
      split_ifs
      · obtain ⟨huse, hhold⟩ := onConnection_live (Connection.sendKeepAlive env now) hlive hu
        refine ih ?_ huse
        rw [List.append_assoc]
        exact hhold _ h
      · have hperm : (some i :: (qs ++ ps)).Nodup := List.perm_middle.nodup h.nodup
        obtain ⟨hi, hnodup⟩ := List.nodup_cons.mp hperm
        have hrest : srv.Holds (qs ++ ps) := by
          refine ⟨hnodup, fun q hq => h.live q ?_⟩
          exact List.perm_middle.symm.mem_iff.mp (List.mem_cons_of_mem _ hq)
        exact ih (hrest.deletePlayer hi) hu

/-- A completion on the connection of a deleted player decodes no packet whose
handler touches the player. -/
def NoLateTouch (env : Environment κ) (srv : VanillaMinecraftServer κ) : ServerEvent → Prop
  | .completion i e =>
      match srv.sessions[i]? with
      | some session => session.live = false →
          Connection.EachRead (fun _ p _ => ¬ TouchesPlayer p) env session.connection e
      | none => True
  | _ => True

theorem handleAccept_sound (address : Address) (created : Int) (h : srv.Sound) :
    (srv.handleAccept address created).Sound := by
  have hold : ∀ j, srv.IsLive j → (srv.handleAccept address created).IsLive j := by
    rintro j ⟨session, hj, hlive⟩
    exact ⟨session, List.getElem?_append_left (List.getElem?_eq_some_iff.mp hj).1 ▸ hj, hlive⟩
  have hnew : (srv.handleAccept address created).IsLive srv.sessions.length :=
    ⟨_, List.getElem?_concat_length, rfl⟩
  refine ⟨⟨?_, fun p hp => ?_⟩, h.uses⟩
  · refine List.nodup_append.mpr ⟨h.holds.nodup, (List.pairwise_singleton _ _), ?_⟩
    rintro p hp q hq rfl
    obtain ⟨j, rfl, session, hj, _⟩ := h.holds.live p hp
    cases List.mem_singleton.mp hq
    exact absurd (List.getElem?_eq_some_iff.mp hj).1 (Nat.lt_irrefl _)
  · rcases List.mem_append.mp hp with hp | hp
    · obtain ⟨j, hj, hlive⟩ := h.holds.live p hp
      exact ⟨j, hj, hold j hlive⟩
    · exact ⟨_, List.mem_singleton.mp hp, hnew⟩

theorem step_sound {e : ServerEvent} (hg : NoLateTouch env srv e)
    (hstep : step env srv e = some srv') (h : srv.Sound) : srv'.Sound := by
  cases step_cases hstep with
  | handleAccept _ _ => exact handleAccept_sound _ _ h
  | acceptFailed _ => exact h
  | completion _ he hs hc =>
      rename_i i e session c _
      rw [NoLateTouch, hs] at hg
      refine ⟨h.holds.mono fun _ => isLive_setConnection hs c, usesLive_setConnection h.uses ?_⟩
      cases hlive : session.live with
      | true => exact .inl rfl
      | false => exact .inr (useCount_completion he hc (hg hlive))
  | tick => exact tickLoop_sound _ h.holds h.uses
  | requestKickPlayer => exact requestKickLoop_sound _ _ rfl h
  | shutdown => exact shutdown_sound h

instance (env : Environment κ) (srv : VanillaMinecraftServer κ) (e : ServerEvent) :
    Decidable (NoLateTouch env srv e) :=
  match e with
  | .completion i e =>
      match h : srv.sessions[i]? with
      | some session => decidable_of_iff (session.live = false →
          Connection.EachRead (fun _ p _ => ¬ TouchesPlayer p) env session.connection e)
          (by rw [NoLateTouch, h])
      | none => .isTrue (by rw [NoLateTouch, h]; trivial)
  | .handleAccept _ _ | .acceptFailed | .tick _ | .requestKickPlayer _ _ | .shutdown =>
      .isTrue trivial

/-- In every run without a late packet that touches the player, every player
that a handler or `disconnect(reason)` used was live. -/
theorem uses_live_of_run {es : List ServerEvent}
    (run : GuardedRun (step env) (NoLateTouch env) {} es srv) : ∀ use ∈ srv.uses, use.2 = true := by
  have hsound : srv.Sound :=
    run.invariant (fun _ _ _ hg hstep h => step_sound hg hstep h) ⟨⟨List.nodup_nil, nofun⟩, nofun⟩
  exact hsound.uses

/-- A player that shakes hands, is kicked, and still sends keep-alives. -/
def kickedEvents : List ServerEvent :=
  [.handleAccept 4096 0,
    .completion 0 (.readCompleted (ClientPacket.clientProtocol 51 [] [] 0).encode chainAmbient),
    .requestKickPlayer (some 4096) [0x62],
    .completion 0 (.readCompleted (List.replicate 20 0) chainAmbient)]

/-- The handshake and the kick use the player, and the keep-alives do not. -/
theorem uses_live_of_run_kicked : ∃ srv : VanillaMinecraftServer Byte,
    GuardedRun (step chainEnvironment) (NoLateTouch chainEnvironment) {} kickedEvents srv ∧
      srv.uses.length = 2 ∧ ∀ use ∈ srv.uses, use.2 = true := by
  obtain ⟨srv, hrun, hlen⟩ := exists_guardedRun (step chainEnvironment)
    (NoLateTouch chainEnvironment) {} kickedEvents (fun srv => srv.uses.length = 2)
    (by decide +kernel)
  exact ⟨srv, hrun, hlen, uses_live_of_run hrun⟩

/-- A position packet that arrives behind a kick moves a deleted player. -/
theorem late_position_uses_deleted_player : ∃ srv : VanillaMinecraftServer Byte,
    GuardedRun (step chainEnvironment) Unguarded {}
      [.handleAccept 4096 0, .requestKickPlayer (some 4096) [0x62],
        .completion 0 (.readCompleted (ClientPacket.playerPosition 1 2 3 4 1).encode chainAmbient)]
      srv ∧ (0, false) ∈ srv.uses :=
  exists_guardedRun _ _ _ _ _ (by decide +kernel)

end VanillaMinecraftServer

end CarpetSrv.Server
