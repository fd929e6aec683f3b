import Antarc.Protocol.Peers

/-! What a peer's poll removes. A group is looked at by the fragment that came last, and
passes the test while that fragment is less than a second old. -/
namespace Antarc.Properties

open Library

/-- The most recent fragment of a group can be tested: a second after it is still a time. -/
def Judged (group : List (Packet Received Fragment)) : Prop :=
  ∃ newest expiry, group.getLast? = some newest ∧
    newest.delivery.metadata.time.add (.fromSecs 1) = .ok expiry

/-- The most recent fragment of a group arrived less than a second before. -/
def Fresh (now : Duration) (group : List (Packet Received Fragment)) : Prop :=
  ∃ newest, group.getLast? = some newest ∧
    now.nanos < newest.delivery.metadata.time.nanos + (Duration.fromSecs 1).nanos

def verdict (now : Duration) (group : List (Packet Received Fragment)) : Option Sequence :=
  match group.getLast? with
  | some newest =>
      if now.nanos < newest.delivery.metadata.time.nanos + (Duration.fromSecs 1).nanos then
        some newest.sequence
      else none
  | none => none

/-- Every group is kept under the sequence of its fragments. -/
def Keyed (reassembler : Reassembler) : Prop :=
  ∀ sequence group, reassembler.lookup sequence = some group →
    ∀ fragment ∈ group, fragment.sequence = sequence

section Tests

variable {now : Duration} {group : List (Packet Received Fragment)}

theorem dropFragment_eq_ok {tested : Option Sequence} :
    dropFragment now group = .ok tested ↔ Judged group ∧ verdict now group = tested := by
  unfold dropFragment Judged verdict
  cases group.getLast? with
  | none => simp [expect]
  | some newest =>
    rw [expect, ok_bind, bind_eq_ok]
    constructor
    · rintro ⟨expiry, hexpiry, h⟩
      refine ⟨⟨newest, expiry, rfl, hexpiry⟩, ?_⟩
      dsimp only
      rw [← Duration.add_eq_ok.mp hexpiry]
      exact Except.ok.inj h
    · rintro ⟨⟨_, expiry, hnewest, hexpiry⟩, h⟩
      cases hnewest
      refine ⟨expiry, hexpiry, ?_⟩
      dsimp only at h
      rw [← Duration.add_eq_ok.mp hexpiry] at h
      exact congrArg Except.ok h

theorem verdict_eq_some {sequence : Sequence} :
    verdict now group = some sequence ↔
      ∃ newest, group.getLast? = some newest ∧ newest.sequence = sequence ∧ Fresh now group := by
  unfold verdict Fresh
  cases group.getLast? with
  | none => simp
  | some newest =>
    simp only [Option.some.injEq, exists_eq_left', Option.ite_none_right_eq_some]
    exact And.comm

end Tests

section Polls

variable {now : Duration} {hash : RandomState} {peer polled : Peer Connected}

def verdicts (hash : RandomState) (reassembler : Reassembler) (now : Duration) : List Sequence :=
  (hash.iterate reassembler).entries.filterMap fun entry => verdict now entry.2

theorem mem_verdicts {reassembler : Reassembler} {sequence : Sequence} :
    sequence ∈ verdicts hash reassembler now ↔ ∃ key group newest,
      reassembler.lookup key = some group ∧ Fresh now group ∧ group.getLast? = some newest ∧
        newest.sequence = sequence := by
  unfold verdicts
  rw [List.mem_filterMap]
  constructor
  · rintro ⟨⟨key, group⟩, hmem, hverdict⟩
    obtain ⟨newest, hnewest, hsequence, hfresh⟩ := verdict_eq_some.mp hverdict
    exact ⟨key, group, newest, ((hash.iterate reassembler).mem_iff key group).mp hmem, hfresh,
      hnewest, hsequence⟩
  · rintro ⟨key, group, newest, hfound, hfresh, hnewest, hsequence⟩
    exact ⟨⟨key, group⟩, ((hash.iterate reassembler).mem_iff key group).mpr hfound,
      verdict_eq_some.mpr ⟨newest, hnewest, hsequence, hfresh⟩⟩

theorem poll_eq_ok : peer.poll hash now = .ok polled ↔
    (∀ sequence group, peer.connection.reassembler.lookup sequence = some group → Judged group) ∧
      ((verdicts hash peer.connection.reassembler now = [] ∧ polled = peer) ∨
        ∃ fragmentId, (verdicts hash peer.connection.reassembler now).getLast? = some fragmentId ∧
          fragmentId ∈ peer.connection.reassembler ∧
          polled = peer.keepFragments (peer.connection.reassembler.erase fragmentId)) := by
  let walk := hash.iterate peer.connection.reassembler
  have hjudged : (∀ group ∈ walk.entries.map Sigma.snd, Judged group) ↔
      ∀ sequence group, peer.connection.reassembler.lookup sequence = some group →
        Judged group := by
    constructor
    · intro h sequence group hfound
      exact h group (List.mem_map_of_mem ((walk.mem_iff sequence group).mpr hfound))
    · intro h group hmem
      obtain ⟨⟨sequence, group⟩, hentry, rfl⟩ := List.mem_map.mp hmem
      exact h sequence group ((walk.mem_iff sequence group).mp hentry)
  have hverdicts : ((walk.entries.map Sigma.snd).map (verdict now)).filterMap id =
      verdicts hash peer.connection.reassembler now := by
    rw [List.map_map, List.filterMap_map]
    rfl
  unfold Peer.poll
  rw [bind_eq_ok, ← hjudged]
  constructor
  · rintro ⟨tested, htested, h⟩
    obtain ⟨hall, rfl⟩ := (mapM_eq_ok fun _ _ => dropFragment_eq_ok).mp htested
    refine ⟨hall, ?_⟩
    rw [hverdicts] at h
    cases hlast : (verdicts hash peer.connection.reassembler now).getLast? with
    | none =>
      rw [hlast] at h
      cases h
      exact .inl ⟨List.getLast?_eq_none_iff.mp hlast, rfl⟩
    | some fragmentId =>
      rw [hlast] at h
      obtain ⟨group, hgroup, h⟩ := bind_eq_ok.mp h
      cases h
      exact .inr ⟨fragmentId, rfl, Finmap.mem_of_lookup_eq_some (expect_eq_ok.mp hgroup), rfl⟩
  · rintro ⟨hall, h⟩
    refine ⟨_, (mapM_eq_ok fun _ _ => dropFragment_eq_ok).mpr ⟨hall, rfl⟩, ?_⟩
    rw [hverdicts]
    rcases h with ⟨hnone, rfl⟩ | ⟨fragmentId, hlast, hmem, rfl⟩
    · rw [hnone]
      rfl
    · obtain ⟨group, hgroup⟩ := (mem_iff_lookup _ _).mp hmem
      rw [hlast]
      exact bind_eq_ok.mpr ⟨group, expect_eq_ok.mpr hgroup, rfl⟩

/-- No `expect` is what ends a call. -/
def ExpectsHold (call : Exec α) : Prop :=
  ∀ message, call ≠ .error (.expect message)

/-- Groups that are kept under their own sequence and are not empty pass every `expect` of a
poll: only the sum of a time and the second can stop it. -/
theorem poll_expectsHold (hash : RandomState) (now : Duration)
    (hnonempty : ∀ sequence group, peer.connection.reassembler.lookup sequence = some group →
      group ≠ [])
    (hkeyed : Keyed peer.connection.reassembler) : ExpectsHold (peer.poll hash now) := by
  intro message h
  unfold Peer.poll at h
  rcases bind_eq_error.mp h with htested | ⟨tested, htested, h⟩
  · obtain ⟨group, hmem, hfails⟩ := exists_of_mapM_eq_error htested
    obtain ⟨⟨sequence, group⟩, hentry, rfl⟩ := List.mem_map.mp hmem
    have hfound := ((hash.iterate peer.connection.reassembler).mem_iff sequence group).mp hentry
    unfold dropFragment at hfails
    rw [List.getLast?_eq_some_getLast (hnonempty sequence group hfound), expect, ok_bind] at hfails
    rcases bind_eq_error.mp hfails with hadd | ⟨_, _, hfails⟩
    · cases Duration.add_eq_error hadd
    · cases hfails
  · obtain ⟨hjudged, hverdicts⟩ := (mapM_eq_ok fun _ _ => dropFragment_eq_ok).mp htested
    cases hlast : (tested.filterMap id).getLast? with
    | none =>
      rw [hlast] at h
      contradiction
    | some fragmentId =>
      rw [hlast] at h
      have hmem : fragmentId ∈ verdicts hash peer.connection.reassembler now := by
        rw [← hverdicts, List.map_map, List.filterMap_map] at hlast
        exact List.mem_of_getLast? hlast
      obtain ⟨key, group, newest, hfound, -, hnewest, rfl⟩ := mem_verdicts.mp hmem
      have hkey := hkeyed key group hfound newest (List.mem_of_getLast? hnewest)
      dsimp only at h
      rw [hkey, hfound] at h
      contradiction

theorem poll_returns_iff (hash : RandomState) (now : Duration)
    (hkeyed : Keyed peer.connection.reassembler) :
    (∃ polled, peer.poll hash now = .ok polled) ↔
      ∀ sequence group, peer.connection.reassembler.lookup sequence = some group →
        Judged group := by
  constructor
  · rintro ⟨polled, h⟩
    exact (poll_eq_ok.mp h).1
  · intro hjudged
    cases hlast : (verdicts hash peer.connection.reassembler now).getLast? with
    | none => exact ⟨peer, poll_eq_ok.mpr ⟨hjudged, .inl ⟨List.getLast?_eq_none_iff.mp hlast, rfl⟩⟩⟩
    | some fragmentId =>
      obtain ⟨key, group, newest, hfound, -, hnewest, rfl⟩ :=
        mem_verdicts.mp (List.mem_of_getLast? hlast)
      have hkey := hkeyed key group hfound newest (List.mem_of_getLast? hnewest)
      have hmem : newest.sequence ∈ peer.connection.reassembler := by
        rw [hkey]
        exact Finmap.mem_of_lookup_eq_some hfound
      exact ⟨_, poll_eq_ok.mpr ⟨hjudged, .inr ⟨_, hlast, hmem, rfl⟩⟩⟩

theorem poll_of_stale
    (hjudged : ∀ sequence group, peer.connection.reassembler.lookup sequence = some group →
      Judged group)
    (hstale : ∀ sequence group, peer.connection.reassembler.lookup sequence = some group →
      ¬Fresh now group) : peer.poll hash now = .ok peer := by
  refine poll_eq_ok.mpr ⟨hjudged, .inl ⟨?_, rfl⟩⟩
  apply List.eq_nil_iff_forall_not_mem.mpr
  intro sequence hmem
  obtain ⟨key, group, -, hfound, hfresh, -⟩ := mem_verdicts.mp hmem
  exact hstale key group hfound hfresh

theorem poll_of_empty (hempty : peer.connection.reassembler = ∅) :
    peer.poll hash now = .ok peer := by
  have hnone : ∀ sequence group, peer.connection.reassembler.lookup sequence ≠ some group := by
    intro sequence group hfound
    rw [hempty] at hfound
    contradiction
  exact poll_of_stale (fun _ _ hfound => absurd hfound (hnone _ _))
    fun _ _ hfound => absurd hfound (hnone _ _)

theorem poll_removes (h : peer.poll hash now = .ok polled) :
    polled = peer ∧ (∀ sequence group, peer.connection.reassembler.lookup sequence = some group →
      ¬Fresh now group) ∨
    ∃ key group newest, peer.connection.reassembler.lookup key = some group ∧ Fresh now group ∧
      group.getLast? = some newest ∧ newest.sequence ∈ peer.connection.reassembler ∧
      polled = peer.keepFragments (peer.connection.reassembler.erase newest.sequence) := by
  obtain ⟨-, ⟨hnone, rfl⟩ | ⟨fragmentId, hlast, hmem, rfl⟩⟩ := poll_eq_ok.mp h
  · refine .inl ⟨rfl, fun sequence group hfound hfresh => ?_⟩
    obtain ⟨newest, hnewest, -⟩ := id hfresh
    have hmem : newest.sequence ∈ verdicts hash polled.connection.reassembler now :=
      mem_verdicts.mpr ⟨sequence, group, newest, hfound, hfresh, hnewest, rfl⟩
    rw [hnone] at hmem
    contradiction
  · obtain ⟨key, group, newest, hfound, hfresh, hnewest, rfl⟩ :=
      mem_verdicts.mp (List.mem_of_getLast? hlast)
    exact .inr ⟨key, group, newest, hfound, hfresh, hnewest, hmem, rfl⟩

/-- In some order of iteration a fresh group decides alone which group is removed. -/
theorem exists_poll_removing {key : Sequence} {group : List (Packet Received Fragment)}
    {newest : Packet Received Fragment}
    (hjudged : ∀ sequence group, peer.connection.reassembler.lookup sequence = some group →
      Judged group)
    (hfound : peer.connection.reassembler.lookup key = some group) (hfresh : Fresh now group)
    (hnewest : group.getLast? = some newest)
    (hmem : newest.sequence ∈ peer.connection.reassembler) :
    ∃ hash, peer.poll hash now =
      .ok (peer.keepFragments (peer.connection.reassembler.erase newest.sequence)) := by
  obtain ⟨walk, before, hwalk⟩ := Iteration.exists_last hfound
  obtain ⟨hash, hhash⟩ := RandomState.exists_iterate walk
  refine ⟨hash, poll_eq_ok.mpr ⟨hjudged, .inr ⟨newest.sequence, ?_, hmem, rfl⟩⟩⟩
  unfold verdicts
  rw [hhash, hwalk, List.filterMap_append, List.getLast?_append]
  have hverdict := verdict_eq_some.mpr ⟨newest, hnewest, rfl, hfresh⟩
  simp [hverdict]

/-- A poll removes none of the groups whose most recent fragment is less than a second old, and
leaves those that it does not remove as they were. -/
def DropsOnlyStale (now : Duration) (peer polled : Peer Connected) : Prop :=
  ∀ sequence group, peer.connection.reassembler.lookup sequence = some group →
    polled.connection.reassembler.lookup sequence = some group ∨
      polled.connection.reassembler.lookup sequence = none ∧ ¬Fresh now group

theorem dropsOnlyStale_refl (now : Duration) (peer : Peer Connected) :
    DropsOnlyStale now peer peer :=
  fun _ _ hfound => .inl hfound

theorem dropsOnlyStale_erase {victim : Sequence} : DropsOnlyStale now peer
    (peer.keepFragments (peer.connection.reassembler.erase victim)) ↔
      ∀ group, peer.connection.reassembler.lookup victim = some group → ¬Fresh now group := by
  constructor
  · intro h group hfound
    rcases h victim group hfound with hkept | ⟨-, hstale⟩
    · have hnone : (peer.connection.reassembler.erase victim).lookup victim = none :=
        Finmap.lookup_erase _ _
      cases hnone.symm.trans hkept
    · exact hstale
  · intro h sequence group hfound
    by_cases heq : sequence = victim
    · subst heq
      exact .inr ⟨Finmap.lookup_erase _ _, h group hfound⟩
    · exact .inl ((Finmap.lookup_erase_ne heq).trans hfound)

theorem dropsOnlyStale_iff_of_keyed (hkeyed : Keyed peer.connection.reassembler)
    (h : peer.poll hash now = .ok polled) :
    DropsOnlyStale now peer polled ↔
      ∀ sequence group, peer.connection.reassembler.lookup sequence = some group →
        ¬Fresh now group := by
  rcases poll_removes h with ⟨rfl, hstale⟩ | ⟨key, group, newest, hfound, hfresh, hnewest, -, rfl⟩
  · exact iff_of_true (dropsOnlyStale_refl now polled) hstale
  · have hkey : newest.sequence = key :=
      hkeyed key group hfound newest (List.mem_of_getLast? hnewest)
    rw [dropsOnlyStale_erase, hkey]
    exact iff_of_false (fun h => h group hfound hfresh) fun h => h key group hfound hfresh

/-- No order of iteration makes a poll drop a fresh group exactly when no fresh group can be
named: where groups are kept under their own sequence, when none is fresh. -/
theorem poll_drops_only_stale_iff (peer : Peer Connected) (now : Duration) :
    ((∀ hash polled, peer.poll hash now = .ok polled → DropsOnlyStale now peer polled) ↔
      ((∀ sequence group, peer.connection.reassembler.lookup sequence = some group →
          Judged group) →
        ∀ key group newest victim, peer.connection.reassembler.lookup key = some group →
          Fresh now group → group.getLast? = some newest →
          peer.connection.reassembler.lookup newest.sequence = some victim →
          ¬Fresh now victim)) ∧
      ∀ hash polled, Keyed peer.connection.reassembler → peer.poll hash now = .ok polled →
        (DropsOnlyStale now peer polled ↔
          ∀ sequence group, peer.connection.reassembler.lookup sequence = some group →
            ¬Fresh now group) := by
  refine ⟨⟨?_, ?_⟩, fun hash polled hkeyed h => dropsOnlyStale_iff_of_keyed hkeyed h⟩
  · intro hdrops hjudged key group newest victim hfound hfresh hnewest hvictim
    obtain ⟨hash, hpoll⟩ := exists_poll_removing hjudged hfound hfresh hnewest
      (Finmap.mem_of_lookup_eq_some hvictim)
    exact dropsOnlyStale_erase.mp (hdrops hash _ hpoll) victim hvictim
  · intro hcondition hash polled hpoll
    obtain ⟨hjudged, -⟩ := poll_eq_ok.mp hpoll
    rcases poll_removes hpoll with ⟨rfl, -⟩ | ⟨key, group, newest, hfound, hfresh, hnewest, -, rfl⟩
    · exact dropsOnlyStale_refl now polled
    · exact dropsOnlyStale_erase.mpr fun victim =>
        hcondition hjudged key group newest victim hfound hfresh hnewest

end Polls

section Dropped

def firstHalf : Packet Received Fragment :=
  ⟨⟨⟨.zero, .v4 0 0⟩⟩, .two, 1, .new .one [1] 0 2⟩

def halfwayPeer : Peer Connected :=
  ⟨.two, 2, 1, .v4 0 0, ⟨⟨.zero, 0, .zero⟩, .one, .zero, Finmap.singleton .two [firstHalf]⟩⟩

theorem halfwayPeer_lookup {sequence : Sequence} {group : List (Packet Received Fragment)}
    (h : halfwayPeer.connection.reassembler.lookup sequence = some group) :
    sequence = .two ∧ group = [firstHalf] := by
  have hkey : sequence = .two :=
    (Finmap.mem_singleton _ _ _).mp (Finmap.mem_of_lookup_eq_some h)
  subst hkey
  exact ⟨rfl, (Option.some.inj (Finmap.lookup_singleton_eq.symm.trans h)).symm⟩

theorem halfwayPeer_keyed : Keyed halfwayPeer.connection.reassembler := by
  intro sequence group hfound fragment hmem
  obtain ⟨rfl, rfl⟩ := halfwayPeer_lookup hfound
  rw [List.mem_singleton.mp hmem]
  rfl

theorem halfwayPeer_judged : ∀ sequence group,
    halfwayPeer.connection.reassembler.lookup sequence = some group → Judged group := by
  intro sequence group hfound
  obtain ⟨-, rfl⟩ := halfwayPeer_lookup hfound
  exact ⟨firstHalf, .fromSecs 1, rfl, rfl⟩

/-- The group is dropped in the very moment in which its fragment arrives. -/
theorem halfwayPeer_dropped : Keyed halfwayPeer.connection.reassembler ∧
    ∃ hash polled, halfwayPeer.poll hash .zero = .ok polled ∧
      ¬DropsOnlyStale .zero halfwayPeer polled := by
  have hfound : halfwayPeer.connection.reassembler.lookup .two = some [firstHalf] :=
    Finmap.lookup_singleton_eq
  have hfresh : Fresh .zero [firstHalf] := ⟨firstHalf, rfl, by decide⟩
  obtain ⟨hash, hpoll⟩ := exists_poll_removing halfwayPeer_judged hfound hfresh rfl
    (Finmap.mem_of_lookup_eq_some hfound)
  exact ⟨halfwayPeer_keyed, hash, _, hpoll,
    fun h => dropsOnlyStale_erase.mp h _ hfound hfresh⟩

theorem halfwayPeer_stale : ∀ sequence group,
    halfwayPeer.connection.reassembler.lookup sequence = some group →
      ¬Fresh (.fromSecs 1) group := by
  rintro sequence group hfound ⟨_, hlast, hlt⟩
  obtain ⟨-, rfl⟩ := halfwayPeer_lookup hfound
  cases hlast
  exact absurd hlt (by decide)

/-- A second later the group would be stale, and then it stays. -/
theorem halfwayPeer_kept : ∃ hash polled, halfwayPeer.poll hash (.fromSecs 1) = .ok polled ∧
    DropsOnlyStale (.fromSecs 1) halfwayPeer polled := by
  have hpoll : halfwayPeer.poll (Classical.arbitrary RandomState) (.fromSecs 1) =
      .ok halfwayPeer := poll_of_stale halfwayPeer_judged halfwayPeer_stale
  exact ⟨_, _, hpoll, ((poll_drops_only_stale_iff halfwayPeer (.fromSecs 1)).2 _ _
    halfwayPeer_keyed hpoll).mpr halfwayPeer_stale⟩

end Dropped

end Antarc.Properties
