import CarpetSrv.Command.CommandHandler
import CarpetSrv.Server.PlayerOwnership

/-!
# The copy of the players that a command works on

While a command works on its copy, the server may delete a player of the copy,
and a new player may be given the address of a deleted one. `list` then asks a
deleted player for its name, and `kickall` kicks a player that joined after the
copy was taken. In the runs in which neither happens to a pointer that is still
to be used, the copy stays valid.
-/

namespace CarpetSrv.Server.VanillaMinecraftServer

open Foundation Network Utils Ledger

variable {κ : Type} {env : Environment κ} {srv srv' : VanillaMinecraftServer κ}
  {i : PlayerId} {p : PlayerPtr} {ps qs : List PlayerPtr}

/-! ## Addresses do not change -/

theorem addressOf_congr (h : tags srv' = tags srv) (p : PlayerPtr) :
    srv'.addressOf p = srv.addressOf p := by
  cases p with
  | none => rfl
  | some i => rw [addressOf_eq, addressOf_eq, h]

@[simp] theorem addressOf_onConnection (i : PlayerId) (f : Connection κ → Connection κ) :
    (srv.onConnection i f).addressOf p = srv.addressOf p :=
  addressOf_congr (tags_onConnection ..) p

@[simp] theorem addressOf_deletePlayer (i : PlayerId) :
    (srv.deletePlayer i).addressOf p = srv.addressOf p := by
  cases p with
  | none => rfl
  | some j =>
      rw [addressOf_eq, addressOf_eq, tags_deletePlayer, Option.map_map]
      congr 1
      ext tag
      by_cases hij : i = j <;> simp [hij]

@[simp] theorem addressOf_kickAndDelete (reason : UTF16String) (q : PlayerPtr) :
    (srv.kickAndDelete env reason q).addressOf p = srv.addressOf p := by
  cases q with
  | none => rfl
  | some i => exact (addressOf_deletePlayer i).trans (addressOf_onConnection i _)

theorem addressOf_foldl_kickAndDelete (reason : UTF16String) (ps : List PlayerPtr)
    (srv : VanillaMinecraftServer κ) :
    (ps.foldl (fun srv player => srv.kickAndDelete env reason player) srv).addressOf p =
      srv.addressOf p := by
  induction ps generalizing srv with
  | nil => rfl
  | cons q ps ih => exact (ih _).trans (addressOf_kickAndDelete reason q)

theorem addressOf_shutdown : (srv.shutdown env).addressOf p = srv.addressOf p :=
  addressOf_foldl_kickAndDelete _ srv.players srv

theorem addressOf_requestKickPlayer (player : Option Address) (reason : UTF16String) :
    (srv.requestKickPlayer env player reason).addressOf p = srv.addressOf p := by
  have hloop : ∀ ps qs : List PlayerPtr,
      (requestKickLoop env player reason srv qs ps).addressOf p = srv.addressOf p := by
    intro ps
    induction ps with
    | nil => exact fun _ => rfl
    | cons q ps ih =>
        intro qs
        rw [requestKickLoop]
        split_ifs
        · exact addressOf_kickAndDelete _ _
        · exact ih _
  exact hloop _ _

theorem addressOf_tick (now : Int) : (srv.tick env now).addressOf p = srv.addressOf p := by
  have hloop : ∀ (ps qs : List PlayerPtr) (srv : VanillaMinecraftServer κ),
      (tickLoop env now srv qs ps).addressOf p = srv.addressOf p := by
    intro ps
    induction ps with
    | nil => exact fun _ _ => rfl
    | cons q ps ih =>
        intro qs srv
        cases q with
        | none => exact ih qs srv
        | some i =>
            rw [tickLoop]
            split_ifs
            · exact (ih _ _).trans (addressOf_onConnection i _)
            · exact (ih _ _).trans (addressOf_deletePlayer i)
  exact hloop _ _ _

theorem addressOf_handleAccept {a : Address} (address : Address) (created : Int)
    (h : srv.addressOf p = some a) : (srv.handleAccept address created).addressOf p = some a := by
  obtain ⟨i, rfl, hi⟩ := Option.bind_eq_some_iff.mp h
  obtain ⟨session, hs, ha⟩ := Option.map_eq_some_iff.mp hi
  have hlt := (List.getElem?_eq_some_iff.mp hs).1
  simp only [addressOf, handleAccept, Option.bind_some, List.getElem?_append_left hlt, hs]
  exact congrArg some ha

theorem addressOf_accepted (address : Address) (created : Int) :
    (srv.handleAccept address created).addressOf (some srv.sessions.length) = some address := by
  simp [addressOf, handleAccept]

/-! ## Players that stay -/

theorem isAlive_onConnection_of_ne {j : PlayerId} (hij : j ≠ i)
    (f : Connection κ → Connection κ) : (srv.onConnection j f).isAlive i = srv.isAlive i := by
  unfold onConnection isAlive
  cases srv.sessions[j]? with
  | none => rfl
  | some session =>
      simp only [setConnection]
      rw [List.getElem?_set_ne hij]

theorem isAlive_deletePlayer (j : PlayerId) : (srv.deletePlayer j).isAlive i = srv.isAlive i := by
  simp only [isAlive, deletePlayer, List.getElem?_modify]
  by_cases hij : j = i
  · cases hs : srv.sessions[i]? <;> simp [hij]
  · simp [hij]

/-- `tick` keeps the players whose connections were alive when it began. -/
theorem mem_tick (now : Int) (hi : some i ∈ srv.players) (ha : srv.isAlive i = true) :
    some i ∈ (srv.tick env now).players := by
  have hloop : ∀ (ps qs : List PlayerPtr) (srv : VanillaMinecraftServer κ),
      (some i ∈ qs ∨ (some i ∈ ps ∧ srv.isAlive i = true)) →
      some i ∈ (tickLoop env now srv qs ps).players := by
    intro ps
    induction ps with
    | nil =>
        intro qs srv h
        exact h.resolve_right fun hnil => List.not_mem_nil hnil.1
    | cons q ps ih =>
        intro qs srv h
        cases q with
        | none =>
            apply ih
            apply h.imp_right
            rintro ⟨hmem, halive⟩
            exact ⟨(List.mem_cons.mp hmem).resolve_left nofun, halive⟩
        | some j =>
            rw [tickLoop]
            by_cases hij : j = i
            · subst hij
              split_ifs with hj
              · exact ih _ _ (.inl (List.mem_append_right _ (List.mem_singleton_self _)))
              · exact ih _ _ (.inl (h.resolve_right fun hr => hj hr.2))
            · have hrest : some i ∈ some j :: ps → some i ∈ ps := fun hmem =>
                (List.mem_cons.mp hmem).resolve_left fun heq => hij (Option.some.inj heq).symm
              split_ifs
              · apply ih
                apply h.imp (List.mem_append_left _)
                rintro ⟨hmem, halive⟩
                exact ⟨hrest hmem, (isAlive_onConnection_of_ne hij _).trans halive⟩
              · apply ih
                apply h.imp_right
                rintro ⟨hmem, halive⟩
                exact ⟨hrest hmem, (isAlive_deletePlayer j).trans halive⟩
  exact hloop _ _ _ (.inr ⟨hi, ha⟩)

/-! ## Steps of the server -/

/-- Some ledger accounts for the players of the server. -/
def Owned (srv : VanillaMinecraftServer κ) : Prop :=
  ∃ entries, Holding ⟨srv, entries⟩ srv.players

theorem Owned.of_ledger {l : Ledger κ} (h : Holding l l.server.players) : Owned l.server :=
  ⟨l.entries, h⟩

theorem Owned.pointer (h : Owned srv) (hp : p ∈ srv.players) :
    ∃ i a, p = some i ∧ srv.addressOf p = some a := by
  obtain ⟨entries, hheld⟩ := h
  have hsome := hp
  rw [hheld.players] at hsome
  obtain ⟨i, _, rfl⟩ := List.mem_map.mp hsome
  obtain ⟨a, _, ha⟩ := hheld.tag hp
  exact ⟨i, a, rfl, ha⟩

theorem Owned.isLive (h : Owned srv) (hi : some i ∈ srv.players) :
    Command.isLive srv i = true := by
  obtain ⟨entries, hheld⟩ := h
  obtain ⟨a, ha, _⟩ := hheld.tag hi
  rw [tags, List.getElem?_map, Option.map_eq_some_iff] at ha
  obtain ⟨session, hs, htag⟩ := ha
  rw [Command.isLive, hs]
  exact congrArg Prod.snd htag

theorem Owned.eq_of_addressOf (h : Owned srv) {q : PlayerPtr} (hp : p ∈ srv.players)
    (hq : q ∈ srv.players) (ha : srv.addressOf p = srv.addressOf q) : p = q := by
  obtain ⟨i, _, rfl, _⟩ := h.pointer hp
  obtain ⟨j, _, rfl, _⟩ := h.pointer hq
  obtain ⟨entries, hheld⟩ := h
  rw [hheld.eq_of_addressOf hp hq ha]

/-- `requestKickPlayer` removes the player at the address and no other. -/
theorem requestKickPlayer_players (env : Environment κ) (h : Owned srv) (player : Option Address)
    (reason : UTF16String) : Owned (srv.requestKickPlayer env player reason) ∧
      ∀ p, p ∈ (srv.requestKickPlayer env player reason).players ↔
        p ∈ srv.players ∧ srv.addressOf p ≠ player := by
  obtain ⟨entries, hheld⟩ := h
  have hkick : Ledger.step env ⟨srv, entries⟩ (.requestKickPlayer player reason) = some _ := rfl
  obtain ⟨hheld', new, _, hacc⟩ := step_account hkick hheld
  have howned := Owned.of_ledger hheld'
  rw [requestKickPlayer_server] at howned
  refine ⟨howned, fun p => ?_⟩
  rcases hacc with ⟨_, hsame, hnone⟩ | ⟨i, _, herase, honly⟩
  · rw [requestKickPlayer_server] at hsame
    rw [hsame]
    exact ⟨fun hp => ⟨hp, hnone p hp⟩, fun hp => hp.1⟩
  · rw [requestKickPlayer_server] at herase
    rw [herase, hheld.players_nodup.mem_erase_iff]
    constructor
    · rintro ⟨hne, hp⟩
      exact ⟨hp, fun ha => hne ((honly p).mp ⟨hp, ha⟩)⟩
    · rintro ⟨hp, hne⟩
      refine ⟨?_, hp⟩
      rintro rfl
      exact hne ((honly _).mpr rfl).2

/-- Only an accept adds a player, and no step changes an address. -/
theorem step_owned {e : ServerEvent} (hstep : srv.step env e = some srv') (h : Owned srv) :
    Owned srv' ∧
      (∀ p ∈ srv'.players, p ∈ srv.players ∨
        ∃ address created, e = .handleAccept address created ∧
          srv'.addressOf p = some address) ∧
      ∀ p a, srv.addressOf p = some a → srv'.addressOf p = some a := by
  cases step_cases hstep with
  | @handleAccept address created _ ha =>
      obtain ⟨entries, hheld⟩ := h
      refine ⟨.of_ledger (handleAccept_spec created hheld ha), ?_, ?_⟩
      · intro p hp
        rcases List.mem_append.mp hp with hold | hnew
        · exact .inl hold
        · rw [List.mem_singleton.mp hnew]
          exact .inr ⟨address, created, rfl, addressOf_accepted address created⟩
      · intro p a hp
        exact addressOf_handleAccept address created hp
  | acceptFailed _ => exact ⟨h, fun _ hp => .inl hp, fun _ _ hp => hp⟩
  | @completion i e session c _ _ hs _ =>
      obtain ⟨entries, hheld⟩ := h
      have htags : tags (srv.setConnection i session c) = tags srv := by
        have hc := tags_onConnection i (fun _ => c) srv
        rwa [onConnection, hs] at hc
      have hset : Holding ⟨srv.setConnection i session c, entries⟩ srv.players :=
        hheld.congr htags rfl rfl
      refine ⟨⟨entries, hset⟩, fun _ hp => .inl hp, ?_⟩
      intro p a hp
      rw [addressOf_congr htags, hp]
  | @tick now =>
      obtain ⟨entries, hheld⟩ := h
      have htick : Ledger.step env ⟨srv, entries⟩ (.tick now fun _ _ c => c) = some _ := rfl
      obtain ⟨hheld', new, _, visits, hbefore, _, hafter⟩ := step_account htick hheld
      have howned := Owned.of_ledger hheld'
      rw [tick_server] at hafter howned
      refine ⟨howned, ?_, ?_⟩
      · intro p hp
        rw [hafter] at hp
        obtain ⟨v, hv, rfl⟩ := List.mem_map.mp hp
        have hmem : some v.1 ∈ visits.map fun v => some v.1 :=
          List.mem_map_of_mem (List.mem_filter.mp hv).1
        exact .inl (hbefore ▸ hmem)
      · intro p a hp
        rw [addressOf_tick, hp]
  | @requestKickPlayer player reason =>
      obtain ⟨howned, hplayers⟩ := requestKickPlayer_players env h player reason
      refine ⟨howned, fun p hp => .inl ((hplayers p).mp hp).1, ?_⟩
      intro p a hp
      rw [addressOf_requestKickPlayer, hp]
  | shutdown =>
      obtain ⟨entries, hheld⟩ := h
      have hshut : Ledger.step env ⟨srv, entries⟩ .shutdown = some _ := rfl
      obtain ⟨hheld', _⟩ := step_account hshut hheld
      have howned := Owned.of_ledger hheld'
      rw [shutdown_server] at howned
      refine ⟨howned, nofun, ?_⟩
      intro p a hp
      rw [addressOf_shutdown, hp]

end CarpetSrv.Server.VanillaMinecraftServer

namespace CarpetSrv.Command

open Foundation Network Packet Server Utils VanillaMinecraftServer

variable {κ : Type} {env : Environment κ}

/-! ## The pointers still to be used -/

/-- The pointers that `kickall` has still to pass on. -/
def Listener.toKick : Listener → List PlayerPtr
  | kicking rest => rest
  | _ => []

/-- The pointers that `list` has still to follow. -/
def Listener.toName : Listener → List PlayerPtr
  | listing rest _ => rest
  | _ => []

namespace CommandHandler

variable {h h' : CommandHandler κ}

/-- The event deletes no player that `list` has still to name, and gives no new
player an address that `kickall` has still to pass on. -/
def KeepsSnapshot (h : CommandHandler κ) : CommandEvent → Prop
  | .server (.tick _) => ∀ p ∈ h.listener.toName, ∀ i ∈ p, h.server.isAlive i = true
  | .server (.requestKickPlayer player _) =>
      ∀ p ∈ h.listener.toName, h.server.addressOf p ≠ player
  | .server .shutdown => h.listener.toName = []
  | .server (.handleAccept address _) =>
      ∀ p ∈ h.listener.toKick, h.server.addressOf p ≠ some address
  | _ => True

/-- The pointers that `list` has still to follow are to players of the server.
A player of the server at an address that `kickall` has still to pass on is the
one that the copy holds. -/
structure SnapshotValid (h : CommandHandler κ) : Prop where
  owned : Owned h.server
  toName : ∀ p ∈ h.listener.toName, p ∈ h.server.players
  toKick : ∀ p ∈ h.listener.toKick, p ∈ h.playersSnapshot ∧
    ∃ a, h.server.addressOf p = some a ∧
      ∀ q ∈ h.server.players, h.server.addressOf q = some a → q = p
  named : ∀ use ∈ h.named, use.2 = true
  kicked : ∀ kick ∈ h.kicked, kick.2 = true

/-- A new command works on the players as they are, or on none. -/
theorem commandListener_spec (command : CppString) (hw : h.listener = .waiting) :
    (h.commandListener command).server = h.server ∧
      (h.commandListener command).named = h.named ∧
      (h.commandListener command).kicked = h.kicked ∧
      (h.commandListener command).playersSnapshot = h.server.players ∧
      (∀ p ∈ (h.commandListener command).listener.toName, p ∈ h.server.players) ∧
      ∀ p ∈ (h.commandListener command).listener.toKick, p ∈ h.server.players := by
  unfold commandListener
  dsimp only
  split_ifs
  all_goals simp [printMessage, Listener.toName, Listener.toKick, hw]

theorem commandListener_valid (command : CppString) (hv : SnapshotValid h)
    (hw : h.listener = .waiting) : SnapshotValid (h.commandListener command) := by
  obtain ⟨hserver, hnamed, hkicked, hsnapshot, hname, hkick⟩ := commandListener_spec command hw
  constructor
  · rw [hserver]
    exact hv.owned
  · rw [hserver]
    exact hname
  · rw [hserver, hsnapshot]
    intro p hp
    obtain ⟨i, a, _, ha⟩ := hv.owned.pointer (hkick p hp)
    refine ⟨hkick p hp, a, ha, ?_⟩
    intro q hq hqa
    exact hv.owned.eq_of_addressOf hq (hkick p hp) (hqa.trans ha.symm)
  · rw [hnamed]
    exact hv.named
  · rw [hkicked]
    exact hv.kicked

/-- `kickall` takes from the server at most the player that it passes on. -/
theorem kickNext_valid {player : PlayerPtr} {rest : List PlayerPtr} (hv : SnapshotValid h)
    (hl : h.listener = .kicking (player :: rest)) :
    SnapshotValid (kickNext env player { h with listener := .kicking rest }) := by
  have hkick : ∀ p ∈ player :: rest, p ∈ h.playersSnapshot ∧
      ∃ a, h.server.addressOf p = some a ∧
        ∀ q ∈ h.server.players, h.server.addressOf q = some a → q = p := by
    have htoKick := hv.toKick
    rw [hl] at htoKick
    exact htoKick
  have hrest : ∀ p ∈ rest, _ := fun p hp => hkick p (List.mem_cons_of_mem _ hp)
  cases player with
  | none => exact ⟨hv.owned, nofun, hrest, hv.named, hv.kicked⟩
  | some i =>
      obtain ⟨hsnap, a, ha, honly⟩ := hkick (some i) List.mem_cons_self
      obtain ⟨howned, hplayers⟩ := requestKickPlayer_players env hv.owned
        (h.server.addressOf (some i))
        (createUTF16String (literal ("Kicked from the server by the console.".toList)))
      refine ⟨howned, nofun, ?_, hv.named, ?_⟩
      · intro p hp
        obtain ⟨hps, b, hb, hponly⟩ := hrest p hp
        refine ⟨hps, b, (addressOf_requestKickPlayer _ _).trans hb, ?_⟩
        intro q hq hqa
        exact hponly q ((hplayers q).mp hq).1 ((addressOf_requestKickPlayer _ _).symm.trans hqa)
      · intro kick hmem
        rcases List.mem_append.mp hmem with hold | hnew
        · exact hv.kicked kick hold
        · obtain ⟨p, hp, rfl⟩ := List.mem_map.mp hnew
          obtain ⟨hin, hout⟩ := List.mem_filter.mp hp
          have hpa : h.server.addressOf p = h.server.addressOf (some i) := by
            by_contra hne
            exact of_decide_eq_true hout ((hplayers p).mpr ⟨hin, hne⟩)
          rw [honly p hin (hpa.trans ha)]
          exact decide_eq_true hsnap

/-- `list` asks a live player for its name. -/
theorem nameNext_valid {player : PlayerPtr} {rest : List PlayerPtr} {playersList : CppString}
    (hv : SnapshotValid h) (hl : h.listener = .listing (player :: rest) playersList) :
    SnapshotValid (nameNext player rest playersList h) := by
  have hname : ∀ p ∈ player :: rest, p ∈ h.server.players := by
    have htoName := hv.toName
    rw [hl] at htoName
    exact htoName
  have hrest : ∀ p ∈ rest, p ∈ h.server.players :=
    fun p hp => hname p (List.mem_cons_of_mem _ hp)
  cases player with
  | none => exact ⟨hv.owned, hrest, nofun, hv.named, hv.kicked⟩
  | some i =>
      refine ⟨hv.owned, hrest, nofun, ?_, hv.kicked⟩
      intro use hmem
      rcases List.mem_append.mp hmem with hold | hnew
      · exact hv.named use hold
      · rw [List.mem_singleton.mp hnew]
        exact hv.owned.isLive (hname _ List.mem_cons_self)

theorem proceed_valid (hv : SnapshotValid h) (hstep : h.proceed env = some h') :
    SnapshotValid h' := by
  unfold proceed at hstep
  split at hstep
  case h_1 => cases hstep
  case h_2 =>
    cases hstep
    obtain ⟨howned, _⟩ := step_owned (rfl : h.server.step env .shutdown = some _) hv.owned
    exact ⟨howned, nofun, nofun, hv.named, hv.kicked⟩
  case h_3 hl =>
    cases hstep
    exact kickNext_valid hv hl
  case h_4 =>
    cases hstep
    exact ⟨hv.owned, nofun, nofun, hv.named, hv.kicked⟩
  case h_5 hl =>
    cases hstep
    exact nameNext_valid hv hl
  case h_6 =>
    cases hstep
    exact ⟨hv.owned, nofun, nofun, hv.named, hv.kicked⟩

/-- A guarded step of the server keeps the players that `list` has still to name. -/
theorem toName_mem_of_step {e : ServerEvent} {srv : VanillaMinecraftServer κ}
    (hg : KeepsSnapshot h (.server e)) (hstep : h.server.step env e = some srv)
    (hv : SnapshotValid h) : ∀ p ∈ h.listener.toName, p ∈ srv.players := by
  intro p hp
  have hmem := hv.toName p hp
  cases step_cases hstep with
  | handleAccept _ _ => exact List.mem_append_left _ hmem
  | acceptFailed _ => exact hmem
  | completion _ _ _ _ => exact hmem
  | tick =>
      obtain ⟨i, _, rfl, _⟩ := hv.owned.pointer hmem
      exact mem_tick _ hmem (hg _ hp i rfl)
  | requestKickPlayer =>
      exact ((requestKickPlayer_players env hv.owned _ _).2 p).mpr ⟨hmem, hg p hp⟩
  | shutdown =>
      rw [show h.listener.toName = [] from hg] at hp
      exact absurd hp List.not_mem_nil

theorem server_valid {e : ServerEvent} {srv : VanillaMinecraftServer κ}
    (hg : KeepsSnapshot h (.server e)) (hstep : h.server.step env e = some srv)
    (hv : SnapshotValid h) : SnapshotValid { h with server := srv } := by
  obtain ⟨howned, hplayers, haddress⟩ := step_owned hstep hv.owned
  have hname := toName_mem_of_step hg hstep hv
  refine ⟨howned, hname, ?_, hv.named, hv.kicked⟩
  intro p hp
  obtain ⟨hsnap, a, ha, honly⟩ := hv.toKick p hp
  refine ⟨hsnap, a, haddress p a ha, ?_⟩
  intro q hq hqa
  rcases hplayers q hq with hold | ⟨address, created, rfl, hnew⟩
  · obtain ⟨_, b, _, hb⟩ := hv.owned.pointer hold
    have hba : b = a := Option.some.inj ((haddress q b hb).symm.trans hqa)
    exact honly q hold (hb.trans (congrArg some hba))
  · have haa : address = a := Option.some.inj (hnew.symm.trans hqa)
    exact absurd (ha.trans (congrArg some haa.symm)) (hg p hp)

theorem step_valid {e : CommandEvent} (hg : KeepsSnapshot h e)
    (hstep : h.step env e = some h') (hv : SnapshotValid h) : SnapshotValid h' := by
  cases e with
  | commandListener command =>
      simp only [CommandHandler.step] at hstep
      split_ifs at hstep with hc
      cases hstep
      exact commandListener_valid command hv hc.2
  | proceed => exact proceed_valid hv hstep
  | server e =>
      obtain ⟨srv, hsrv, rfl⟩ := Option.map_eq_some_iff.mp hstep
      exact server_valid hg hsrv hv

/-- In every run in which the server deletes no player that `list` has still to
name and gives out no address that `kickall` has still to pass on, every player
asked for its name was live, and every player kicked was in the copy. -/
theorem snapshot_valid_of_run {es : List CommandEvent}
    (run : GuardedRun (step env) KeepsSnapshot {} es h) :
    (∀ use ∈ h.named, use.2 = true) ∧ ∀ kick ∈ h.kicked, kick.2 = true := by
  have hv : SnapshotValid h := by
    apply run.invariant (fun _ _ _ hg hstep hv => step_valid hg hstep hv)
    refine ⟨⟨[], ?_⟩, nofun, nofun, nofun, nofun⟩
    exact ⟨rfl, rfl, List.nodup_nil, nofun, nofun, nofun⟩
  exact ⟨hv.named, hv.kicked⟩

instance (h : CommandHandler κ) (e : CommandEvent) : Decidable (KeepsSnapshot h e) :=
  match e with
  | .server (.tick _) => inferInstanceAs (Decidable (∀ p ∈ h.listener.toName, ∀ i ∈ p, _))
  | .server (.requestKickPlayer _ _) => inferInstanceAs (Decidable (∀ p ∈ h.listener.toName, _))
  | .server .shutdown => inferInstanceAs (Decidable (h.listener.toName = []))
  | .server (.handleAccept _ _) => inferInstanceAs (Decidable (∀ p ∈ h.listener.toKick, _))
  | .server .acceptFailed | .server (.completion _ _) | .commandListener _ | .proceed =>
      .isTrue trivial

/-- A player is named while the server ticks, a second one joins, and both are kicked. -/
def quietEvents : List CommandEvent :=
  [.server (.handleAccept 4096 0), .commandListener (literal ("list".toList)),
    .server (.tick 0), .proceed, .server (.handleAccept 8192 0), .proceed,
    .commandListener (literal ("kickall".toList)), .proceed, .server (.tick 0), .proceed]

theorem snapshot_valid_of_run_quiet : ∃ h : CommandHandler Byte,
    GuardedRun (step chainEnvironment) KeepsSnapshot {} quietEvents h ∧
      h.named = [(0, true)] ∧ h.kicked.length = 2 ∧
      (∀ use ∈ h.named, use.2 = true) ∧ ∀ kick ∈ h.kicked, kick.2 = true := by
  obtain ⟨h, hrun, hnamed, hkicked⟩ := exists_guardedRun (step chainEnvironment) KeepsSnapshot
    ({} : CommandHandler Byte) quietEvents (fun h => h.named = [(0, true)] ∧ h.kicked.length = 2)
    (by decide +kernel)
  exact ⟨h, hrun, hnamed, hkicked, snapshot_valid_of_run hrun⟩

/-- The first of two players sends a handshake of another version, which stops its
connection, and a tick deletes it while `list` has still to name it. -/
def lateNameEvents : List CommandEvent :=
  [.server (.handleAccept 4096 0), .server (.handleAccept 8192 0),
    .commandListener (literal ("list".toList)),
    .server (.completion 0
      (.readCompleted (ClientPacket.clientProtocol 0 [] [] 0).encode chainAmbient)),
    .server (.tick 0), .proceed]

/-- Two players are to be kicked. The second one stops, a tick deletes it, and
a new player gets its address. -/
def lateKickEvents : List CommandEvent :=
  [.server (.handleAccept 4096 0), .server (.handleAccept 8192 0),
    .commandListener (literal ("kickall".toList)), .proceed,
    .server (.completion 1
      (.readCompleted (ClientPacket.clientProtocol 0 [] [] 0).encode chainAmbient)),
    .server (.tick 0), .server (.handleAccept 8192 0), .proceed]

/-- `list` follows a pointer to a deleted player, and `kickall` kicks a player
that joined behind the copy. -/
theorem snapshot_outlives_players :
    (∃ h : CommandHandler Byte,
      GuardedRun (step chainEnvironment) Unguarded {} lateNameEvents h ∧ (0, false) ∈ h.named) ∧
    ∃ h : CommandHandler Byte,
      GuardedRun (step chainEnvironment) Unguarded {} lateKickEvents h ∧
        (some 2, false) ∈ h.kicked := by
  constructor
  · exact exists_guardedRun _ _ _ _ _ (by decide +kernel)
  · exact exists_guardedRun _ _ _ _ _ (by decide +kernel)

end CommandHandler

end CarpetSrv.Command
