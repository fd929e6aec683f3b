import Antarc.Properties.PassRuns
import Antarc.Properties.Retries

/-! Whether a sequence tracker counts packets. It does while packets only go out from queues,
and all fragments of a packet are counted at the last of them; it does not when a packet
is sent again and accounted once more, or when its fragments are too many for a byte. -/
namespace Antarc.Properties

open Library

namespace Body

def isFragment : Body → Bool
  | fragment _ => true
  | _ => false

theorem ends_of_not_fragment {body : Body} (h : body.isFragment = false) : body.ends = true := by
  cases body with
  | fragment message => contradiction
  | _ => rfl

end Body

section Tallies

def firstSent (socket : List Transmission) : List QueueEntry :=
  (socket.filter Transmission.first).map sentEntry

/-- The packets among these entries that went to an address: a handshake packet, a data
transfer and a heartbeat count for one each, and the fragments of one call of `schedule`,
which share their packet id, together. -/
def packetsTo (address : SocketAddr) (sent : List QueueEntry) : Nat :=
  let there := sent.filter fun entry => entry.address = address
  (there.filter fun entry => !entry.body.isFragment).length +
    ((there.filter fun entry => entry.body.isFragment).map QueueEntry.packetId).dedup.length

def endedTo (address : SocketAddr) (sent : List QueueEntry) : Nat :=
  (sent.filter fun entry => decide (entry.address = address) && entry.body.ends).length

def lastFragments (entries : List QueueEntry) : List (SocketAddr × PacketId) :=
  (entries.filter fun entry => entry.body.isFragment && entry.body.ends).map
    fun entry => (entry.address, entry.packetId)

/-- The next numbers count what ended, each packet of fragments that went out has ended or
is just going out, and none of them ends twice, also with what is still queued. Packet ids
from `fresh` on are not in use. -/
structure Tally (numbering : Numbering SocketAddr PacketId) (sent pending : List QueueEntry)
    (fresh : PacketId) : Prop where
  counted : ∀ address, numbering.next address = 1 + endedTo address sent
  ended : ∀ entry ∈ sent, entry.body.isFragment = true →
    (entry.address, entry.packetId) ∈ lastFragments sent ∨
      numbering.group entry.address = some entry.packetId
  once : (lastFragments (sent ++ pending)).Nodup
  known : ∀ entry ∈ sent ++ pending, entry.body.isFragment = true →
    entry.packetId.toNat < fresh.toNat

variable {numbering later : Numbering SocketAddr PacketId} {sent pending : List QueueEntry}
  {fresh : PacketId}

theorem lastFragments_append (first second : List QueueEntry) :
    lastFragments (first ++ second) = lastFragments first ++ lastFragments second := by
  unfold lastFragments
  rw [List.filter_append, List.map_append]

theorem mem_lastFragments {entries : List QueueEntry} {key : SocketAddr × PacketId} :
    key ∈ lastFragments entries ↔ ∃ entry ∈ entries, entry.body.isFragment = true ∧
      entry.body.ends = true ∧ (entry.address, entry.packetId) = key := by
  simp only [lastFragments, List.mem_map, List.mem_filter, Bool.and_eq_true, and_assoc]

theorem lastFragments_of_none {entries : List QueueEntry}
    (h : ∀ entry ∈ entries, entry.body.isFragment = false) : lastFragments entries = [] := by
  refine List.eq_nil_iff_forall_not_mem.mpr fun key hkey => ?_
  obtain ⟨entry, hmem, hfragment, -⟩ := mem_lastFragments.mp hkey
  rw [h entry hmem] at hfragment
  contradiction

theorem Tally.start (fresh : PacketId) : Tally .start [] [] fresh where
  counted _ := rfl
  ended _ h := by contradiction
  once := .nil
  known _ h := by contradiction

theorem Tally.reorder (tally : Tally numbering sent pending fresh) {queued : List QueueEntry}
    (h : queued.Perm pending) : Tally numbering sent queued fresh where
  counted := tally.counted
  ended := tally.ended
  once := by
    have hlast := ((h.append_left sent).filter fun entry =>
      entry.body.isFragment && entry.body.ends).map fun entry => (entry.address, entry.packetId)
    exact hlast.nodup_iff.mpr tally.once
  known entry hmem := tally.known entry ((h.append_left sent).mem_iff.mp hmem)

theorem Tally.queue (tally : Tally numbering sent pending fresh) {new : List QueueEntry}
    {tracker : PacketId} (htracker : fresh.toNat ≤ tracker.toNat)
    (hids : ∀ entry ∈ new, entry.body.isFragment = true →
      entry.packetId = fresh ∧ fresh.toNat < tracker.toNat)
    (honce : (lastFragments new).Nodup) : Tally numbering sent (new ++ pending) tracker := by
  have hlater : Tally numbering sent (pending ++ new) tracker := by
    refine ⟨tally.counted, tally.ended, ?_, ?_⟩
    · rw [← List.append_assoc, lastFragments_append]
      refine List.Nodup.append tally.once honce fun key hold hnew => ?_
      obtain ⟨old, hmem, hfragment, -, rfl⟩ := mem_lastFragments.mp hold
      obtain ⟨entry, hentry, hsecond, -, hkey⟩ := mem_lastFragments.mp hnew
      have hknown := tally.known old hmem hfragment
      rw [← (Prod.mk.inj hkey).2, (hids entry hentry hsecond).1] at hknown
      exact Nat.lt_irrefl _ hknown
    · intro entry hmem hfragment
      rw [← List.append_assoc] at hmem
      rcases List.mem_append.mp hmem with hmem | hmem
      · exact Nat.lt_of_lt_of_le (tally.known entry hmem hfragment) htracker
      · obtain ⟨hid, hlt⟩ := hids entry hmem hfragment
        rw [hid]
        exact hlt
  exact hlater.reorder List.perm_append_comm

theorem Tally.queue_others (tally : Tally numbering sent pending fresh) {new : List QueueEntry}
    {tracker : PacketId} (htracker : fresh.toNat ≤ tracker.toNat)
    (hnew : ∀ entry ∈ new, entry.body.isFragment = false) :
    Tally numbering sent (new ++ pending) tracker := by
  refine tally.queue htracker (fun entry hmem hfragment => ?_) ?_
  · rw [hnew entry hmem] at hfragment
    contradiction
  · rw [lastFragments_of_none hnew]
    exact .nil

theorem endedTo_append (address : SocketAddr) (sent : List QueueEntry) (entry : QueueEntry) :
    endedTo address (sent ++ [entry]) = endedTo address sent +
      if entry.address = address ∧ entry.body.ends = true then 1 else 0 := by
  unfold endedTo
  rw [List.filter_append, List.length_append, List.filter_singleton]
  congr 1
  by_cases haddress : entry.address = address <;> cases entry.body.ends <;> simp [haddress]

theorem next_sentOnce (numbering : Numbering SocketAddr PacketId) (line : Line)
    (address : SocketAddr) : (sentOnce numbering line).next address = numbering.next address +
      if line.address = address ∧ line.body.ends = true then 1 else 0 := by
  unfold sentOnce accounted
  by_cases hends : line.body.ends = true
  · rw [if_pos hends]
    by_cases haddress : address = line.address
    · simp [Numbering.advance, Numbering.emit, haddress, hends]
    · simp [Numbering.advance, Numbering.emit, haddress, Ne.symm haddress]
  · rw [if_neg hends, if_neg fun h => hends h.2]
    rfl

theorem group_sentOnce_of_ne (numbering : Numbering SocketAddr PacketId) {line : Line}
    {address : SocketAddr} (h : address ≠ line.address) :
    (sentOnce numbering line).group address = numbering.group address := by
  unfold sentOnce accounted
  split <;> simp [Numbering.advance, Numbering.emit, h]

theorem group_sentOnce (numbering : Numbering SocketAddr PacketId) (line : Line) :
    (sentOnce numbering line).group line.address =
      if line.body.ends = true then none else some line.packetId := by
  unfold sentOnce accounted
  split <;> simp [Numbering.advance, Numbering.emit]

/-- A queue entry goes out. Between two packets anything may come next, and within one only
its fragments. -/
theorem Tally.send {entry : QueueEntry} (tally : Tally numbering sent (entry :: pending) fresh)
    {line : Line} (haddress : line.address = entry.address) (hid : line.packetId = entry.packetId)
    (hbody : line.body = entry.body)
    (hfree : numbering.group entry.address = none ∨
      entry.body.isFragment = true ∧ numbering.group entry.address = some entry.packetId) :
    Tally (sentOnce numbering line) (sent ++ [entry]) pending fresh := by
  have hsent : sent ++ entry :: pending = sent ++ [entry] ++ pending :=
    (List.append_assoc sent [entry] pending).symm
  have hgroup : entry.body.isFragment = true →
      (entry.address, entry.packetId) ∈ lastFragments (sent ++ [entry]) ∨
        (sentOnce numbering line).group entry.address = some entry.packetId := by
    intro hfragment
    rw [← haddress, group_sentOnce, hbody]
    by_cases hends : entry.body.ends = true
    · refine .inl (mem_lastFragments.mpr ⟨entry, ?_, hfragment, hends, by rw [haddress]⟩)
      exact List.mem_append_right _ (List.mem_singleton_self _)
    · rw [if_neg hends, hid]
      exact .inr rfl
  refine ⟨?_, ?_, ?_, ?_⟩
  · intro address
    rw [next_sentOnce, endedTo_append, tally.counted address, haddress, hbody, Nat.add_assoc]
  · intro other hmem hfragment
    rcases List.mem_append.mp hmem with hmem | hmem
    · rcases tally.ended other hmem hfragment with hended | hopen
      · left
        rw [lastFragments_append]
        exact List.mem_append_left _ hended
      · by_cases hsame : other.address = line.address
        · -- The packet that was going out is the one of the entry.
          rw [hsame, haddress] at hopen
          rcases hfree with hnone | ⟨hsecond, hfree⟩
          · rw [hnone] at hopen
            contradiction
          · rw [hfree] at hopen
            rw [hsame, haddress, ← Option.some.inj hopen]
            exact hgroup hsecond
        · rw [group_sentOnce_of_ne _ hsame]
          exact .inr hopen
    · rw [List.mem_singleton.mp hmem] at hfragment ⊢
      exact hgroup hfragment
  · rw [← hsent]
    exact tally.once
  · rw [← hsent]
    exact tally.known

def lastsTo (address : SocketAddr) (sent : List QueueEntry) : List QueueEntry :=
  let there := sent.filter fun entry => entry.address = address
  (there.filter fun entry => entry.body.isFragment).filter fun entry => entry.body.ends

theorem endedTo_eq (address : SocketAddr) (sent : List QueueEntry) :
    let there := sent.filter fun entry => entry.address = address
    endedTo address sent = (there.filter fun entry => !entry.body.isFragment).length +
      (lastsTo address sent).length := by
  unfold endedTo lastsTo
  induction sent with
  | nil => rfl
  | cons entry rest ih =>
    by_cases haddress : entry.address = address
    · cases hfragment : entry.body.isFragment with
      | false =>
        have hends := Body.ends_of_not_fragment hfragment
        simp only [List.filter_cons, haddress, hfragment, hends, decide_true, Bool.and_self,
          Bool.not_false, if_true, List.length_cons] at ih ⊢
        simp only [ih, Bool.false_eq_true, if_false]
        omega
      | true =>
        cases hends : entry.body.ends with
        | false => simpa [haddress, hfragment, hends] using ih
        | true =>
          simp only [List.filter_cons, haddress, hfragment, hends, decide_true, Bool.and_self,
            if_true, List.length_cons] at ih ⊢
          simp only [ih, Bool.not_true, Bool.false_eq_true, if_false]
          omega
    · simpa [haddress] using ih

theorem Tally.nodup_there (tally : Tally numbering sent pending fresh) (address : SocketAddr) :
    ((lastsTo address sent).map QueueEntry.packetId).Nodup := by
  have honce := tally.once
  rw [lastFragments_append] at honce
  have hkeys := honce.of_append_left
  refine .of_map (Prod.mk address) (hkeys.sublist ?_)
  have hthere : ∀ entry ∈ lastsTo address sent,
      (entry.address, entry.packetId) = (Prod.mk address ∘ QueueEntry.packetId) entry := by
    intro entry hmem
    have haddress := (List.mem_filter.mp (List.mem_of_mem_filter (List.mem_of_mem_filter hmem))).2
    rw [of_decide_eq_true haddress]
    rfl
  rw [List.map_map, ← List.map_congr_left hthere]
  refine List.Sublist.map _ ?_
  unfold lastsTo
  rw [List.filter_filter, List.filter_filter]
  refine List.monotone_filter_right _ fun entry hentry => ?_
  simp only [Bool.and_eq_true] at hentry ⊢
  exact ⟨hentry.1.2, hentry.1.1⟩

theorem Tally.next_eq (tally : Tally numbering sent pending fresh) (settled : Settled numbering)
    (address : SocketAddr) : numbering.next address = 1 + packetsTo address sent := by
  rw [tally.counted address, endedTo_eq]
  refine congrArg (fun count => 1 + (_ + count)) (Eq.symm ?_)
  refine length_dedup_packets (fun part hpart => ?_) (tally.nodup_there address)
  obtain ⟨hthere, hfragment⟩ := List.mem_filter.mp hpart
  obtain ⟨hsent, haddress⟩ := List.mem_filter.mp hthere
  rcases tally.ended part hsent hfragment with hended | hopen
  · obtain ⟨last, hlast, hlastFragment, hends, hkey⟩ := mem_lastFragments.mp hended
    obtain ⟨hsame, hid⟩ := Prod.mk.inj hkey
    have hthere' : last ∈ sent.filter fun entry => entry.address = address := by
      refine List.mem_filter.mpr ⟨hlast, ?_⟩
      rw [hsame]
      exact haddress
    exact ⟨last, List.mem_filter.mpr ⟨hthere', hlastFragment⟩, hends, hid⟩
  · rw [settled] at hopen
    contradiction

theorem firstSent_append (socket : List Transmission) (transmission : Transmission) :
    firstSent (socket ++ [transmission]) =
      firstSent socket ++ if transmission.first then [sentEntry transmission] else [] := by
  unfold firstSent
  rw [List.filter_append, List.map_append, List.filter_singleton]
  cases transmission.first <;> rfl

/-- A queue goes out. It holds nothing but fragments, or nothing else and finds no packet on
its way. -/
theorem Tally.sendsFirst {socket after : List Transmission} {entries : List QueueEntry}
    (sends : SendsFirst numbering socket entries later after)
    (tally : Tally numbering (firstSent socket) (entries ++ pending) fresh)
    (hkind : (∀ entry ∈ entries, entry.body.isFragment = true) ∨
      Settled numbering ∧ ∀ entry ∈ entries, entry.body.isFragment = false) :
    Tally later (firstSent after) pending fresh := by
  induction sends with
  | nothing numbering socket => exact tally
  | more transmission first free rest ih =>
    refine ih ?_ ?_
    · rw [firstSent_append, if_pos first]
      refine tally.send rfl rfl rfl ?_
      rcases hkind with hfragments | ⟨settled, -⟩
      · exact free.imp_right fun hfree => ⟨hfragments _ List.mem_cons_self, hfree⟩
      · exact .inl (settled _)
    · refine hkind.imp (fun hfragments entry hmem => ?_) fun ⟨settled, hothers⟩ => ⟨?_, ?_⟩
      · exact hfragments entry (List.mem_cons_of_mem _ hmem)
      · have hends : (lineOf transmission.packet).body.ends = true :=
          Body.ends_of_not_fragment (hothers _ List.mem_cons_self)
        rw [sentOnce, accounted, if_pos hends]
        exact settled.sent _ _
      · exact fun entry hmem => hothers entry (List.mem_cons_of_mem _ hmem)

theorem Tally.sendsAgain {socket after : List Transmission}
    (sends : SendsAgain numbering socket none later after)
    (tally : Tally numbering (firstSent socket) pending fresh) :
    Tally later (firstSent after) pending fresh := by
  cases sends with
  | nothing => exact tally
  | resent transmission sending again =>
    rw [firstSent_append, again, if_neg Bool.false_ne_true, List.append_nil]
    exact ⟨tally.counted, tally.ended, tally.once, tally.known⟩

end Tallies

end Antarc.Properties
