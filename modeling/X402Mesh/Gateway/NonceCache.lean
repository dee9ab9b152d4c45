import X402Mesh.Lib.OrderedMap
import X402Mesh.Lib.Transition
import X402Mesh.Shared.Errors

set_option autoImplicit false

namespace X402Mesh.Gateway

def registrationMaxSkewMs : Int := 120000

-- A timestamp that a schema passed is an integer.
def assertFreshTimestamp (ts now : Int) : Except MeshError Unit :=
  let skew := ts - now
  if skew.natAbs > registrationMaxSkewMs then
    .error ⟨.validation,
      if skew > 0 then "registration timestamp is too far in the future"
      else "registration timestamp is too old",
      [("skewMs", toString skew), ("maxSkewMs", toString registrationMaxSkewMs)]⟩
  else .ok ()

theorem assertFreshTimestamp_self (ts : Int) : assertFreshTimestamp ts ts = .ok () := by
  simp [assertFreshTimestamp, registrationMaxSkewMs]

structure NonceCache where
  seen : OrderedMap String Int
  ttlMs : Int
  maxEntries : Nat

namespace NonceCache

def fresh : NonceCache := ⟨.empty, registrationMaxSkewMs * 2, 50000⟩

def expire (cache : NonceCache) (now : Int) : NonceCache :=
  { cache with seen := cache.seen.dropWhile fun _ recordedAt => !(now - recordedAt < cache.ttlMs) }

-- As many of the oldest go as it takes to be below the cap.
def evict (cache : NonceCache) : NonceCache :=
  { cache with seen := cache.seen.drop (cache.seen.size + 1 - cache.maxEntries) }

def prune (cache : NonceCache) (now : Int) : NonceCache := (cache.expire now).evict

def holds (cache : NonceCache) (now : Int) (nonce : String) : Bool :=
  (cache.seen.get? nonce).any fun previous => now - previous < cache.ttlMs

def claim (cache : NonceCache) (now : Int) (nonce : String) : Bool × NonceCache :=
  let cache := cache.prune now
  if cache.holds now nonce then (false, cache)
  else (true, { cache with seen := cache.seen.set nonce now })

def belowCap (cache : NonceCache) : Prop := cache.seen.size < cache.maxEntries

instance (cache : NonceCache) : Decidable cache.belowCap :=
  inferInstanceAs (Decidable (cache.seen.size < cache.maxEntries))

theorem size_expire (cache : NonceCache) (now : Int) :
    (cache.expire now).seen.size ≤ cache.seen.size :=
  (List.dropWhile_sublist _).length_le

theorem evict_below {cache : NonceCache} (below : cache.belowCap) : cache.evict = cache := by
  unfold belowCap at below
  have none_over : cache.seen.size + 1 - cache.maxEntries = 0 := by omega
  simp [evict, none_over, OrderedMap.drop]

theorem prune_below {cache : NonceCache} (below : cache.belowCap) (now : Int) :
    cache.prune now = cache.expire now := by
  apply evict_below
  have smaller := cache.size_expire now
  unfold belowCap at below ⊢
  exact Nat.lt_of_le_of_lt smaller below

theorem holds_expire (cache : NonceCache) (now : Int) (nonce : String) :
    (cache.expire now).holds now nonce = cache.holds now nonce := by
  unfold holds
  cases found : cache.seen.get? nonce with
  | none =>
    cases later : (cache.expire now).seen.get? nonce with
    | none => rfl
    | some recordedAt => cases found.symm.trans (cache.seen.get?_dropWhile_some _ _ _ later)
  | some recordedAt =>
    by_cases live : now - recordedAt < cache.ttlMs
    · have kept : (cache.expire now).seen.get? nonce = some recordedAt :=
        cache.seen.get?_dropWhile _ _ _ found (by simp [live])
      rw [kept]
      rfl
    · cases later : (cache.expire now).seen.get? nonce with
      | none => simp [live]
      | some other =>
        have same := found.symm.trans (cache.seen.get?_dropWhile_some _ _ _ later)
        cases same
        rfl

theorem claim_won (cache : NonceCache) (now : Int) (nonce : String) :
    (cache.claim now nonce).1 = !(cache.prune now).holds now nonce := by
  unfold claim
  dsimp only
  split
  next held => simp [held]
  next free => simp [Bool.eq_false_iff.mpr free]

theorem claim_below {cache : NonceCache} (below : cache.belowCap) (now : Int) (nonce : String) :
    (cache.claim now nonce).1 = !cache.holds now nonce := by
  rw [claim_won, prune_below below, holds_expire]

theorem holds_iff (cache : NonceCache) (now : Int) (nonce : String) :
    cache.holds now nonce = true ↔
      ∃ since, cache.seen.get? nonce = some since ∧ now - since < cache.ttlMs := by
  simp [holds, Option.any_eq_true]

theorem prune_suffix (cache : NonceCache) (now : Int) :
    (cache.prune now).seen.entries <:+ cache.seen.entries :=
  (List.drop_suffix _ _).trans (List.dropWhile_suffix _)

theorem size_prune (cache : NonceCache) (now : Int) :
    (cache.prune now).seen.size ≤ cache.maxEntries - 1 := by
  have length : (cache.prune now).seen.size =
      (cache.expire now).seen.size - ((cache.expire now).seen.size + 1 - cache.maxEntries) :=
    List.length_drop
  omega

theorem get?_prune_some {cache : NonceCache} {now : Int} {nonce : String} {since : Int}
    (found : (cache.prune now).seen.get? nonce = some since) :
    cache.seen.get? nonce = some since :=
  cache.seen.get?_dropWhile_some _ _ _ ((cache.expire now).seen.get?_drop_some _ _ _ found)

-- What a claim records of the other nonces was there before.
theorem get?_claim_some {cache : NonceCache} {now : Int} {nonce other : String} {since : Int}
    (different : other ≠ nonce) (found : (cache.claim now nonce).2.seen.get? other = some since) :
    (cache.prune now).seen.get? other = some since := by
  unfold claim at found
  dsimp only at found
  split at found
  next => exact found
  next => rwa [OrderedMap.get?_set, if_neg different] at found

theorem claim_settings (cache : NonceCache) (now : Int) (nonce : String) :
    (cache.claim now nonce).2.ttlMs = cache.ttlMs ∧
      (cache.claim now nonce).2.maxEntries = cache.maxEntries := by
  unfold claim
  dsimp only
  split <;> exact ⟨rfl, rfl⟩

/-- Of two prunings, one drops no more than the other: a live entry that survived the first is still
there after the second, since that one stops at the cap or at the first entry that is live. -/
theorem live_pruned {cache : NonceCache} {now later : Int} {nonce : String} {since : Int}
    (found : (cache.prune now).seen.get? nonce = some since) (live : later - since < cache.ttlMs) :
    (cache.prune later).seen.get? nonce = some since := by
  have member := (OrderedMap.get?_eq_some _ _ _).mp found
  rw [OrderedMap.get?_eq_some]
  rcases List.suffix_or_suffix_of_suffix (cache.prune_suffix now) (cache.prune_suffix later) with
    shorter | longer
  · exact shorter.subset member
  · have bound := cache.size_prune now
    have lengths := longer.length_le
    have kept := cache.seen.get?_dropWhile (fun _ recordedAt => !(later - recordedAt < cache.ttlMs))
      nonce since (get?_prune_some found) (by simp [live])
    by_cases full : (cache.expire later).seen.size + 1 ≤ cache.maxEntries
    · have below : (cache.expire later).belowCap := full
      rw [prune, evict_below below]
      exact (OrderedMap.get?_eq_some _ _ _).mp kept
    · have size : (cache.prune later).seen.size = cache.maxEntries - 1 := by
        have length : (cache.prune later).seen.size =
            (cache.expire later).seen.size -
              ((cache.expire later).seen.size + 1 - cache.maxEntries) := List.length_drop
        omega
      have same := longer.eq_of_length_le (by
        change (cache.prune now).seen.size ≤ (cache.prune later).seen.size
        omega)
      rwa [same]

-- A claim makes no other nonce refused.
theorem claim_keeps_others {cache : NonceCache} {now later : Int} {nonce other : String}
    (different : other ≠ nonce) (accepted : (cache.claim later other).1 = true) :
    ((cache.claim now nonce).2.claim later other).1 = true := by
  rw [claim_won] at accepted ⊢
  rw [Bool.not_eq_true', ← Bool.not_eq_true] at accepted ⊢
  intro held
  obtain ⟨since, found, live⟩ := (holds_iff _ _ _).mp held
  have before := get?_claim_some different (get?_prune_some found)
  rw [show ((cache.claim now nonce).2.prune later).ttlMs = cache.ttlMs from
    (cache.claim_settings now nonce).1] at live
  exact accepted ((holds_iff _ _ _).mpr ⟨since, live_pruned before live, live⟩)

-- Below the cap it makes none accepted either.
theorem claim_below_others {cache : NonceCache} {now later : Int} {nonce other : String}
    (below : cache.belowCap) (still : (cache.claim now nonce).2.belowCap) (forward : now ≤ later)
    (different : other ≠ nonce) :
    ((cache.claim now nonce).2.claim later other).1 = (cache.claim later other).1 := by
  rw [claim_below still, claim_below below]
  congr 1
  rw [Bool.eq_iff_iff, holds_iff, holds_iff, (cache.claim_settings now nonce).1]
  constructor
  · rintro ⟨since, found, live⟩
    exact ⟨since, get?_prune_some (get?_claim_some different found), live⟩
  · rintro ⟨since, found, live⟩
    refine ⟨since, ?_, live⟩
    have kept : (cache.prune now).seen.get? other = some since := by
      rw [prune_below below]
      exact cache.seen.get?_dropWhile _ _ _ found (by simp; omega)
    unfold claim
    dsimp only
    split
    next => exact kept
    next => rwa [OrderedMap.get?_set, if_neg different]

end NonceCache

structure Envelope where
  timestamp : Int
  nonce : String
  deriving DecidableEq, Repr

-- `accepted` has every envelope that passed both checks, with the reading its claim was made at.
structure Admissions where
  clock : Int
  cache : NonceCache
  accepted : List (Envelope × Int)

structure Presentation where
  envelope : Envelope
  freshAt : Int
  claimAt : Int
  deriving DecidableEq, Repr

namespace Admissions

def present (s : Admissions) (p : Presentation) : Admissions :=
  if (assertFreshTimestamp p.envelope.timestamp p.freshAt).isOk then
    let (won, cache) := s.cache.claim p.claimAt p.envelope.nonce
    ⟨p.claimAt, cache, if won then s.accepted ++ [(p.envelope, p.claimAt)] else s.accepted⟩
  else { s with clock := p.freshAt }

def init (start : Int) : Admissions := ⟨start, .fresh, []⟩

-- The clock does not go back, and the cache stays below its cap.
def ordinary (s : Admissions) (p : Presentation) : Prop :=
  s.clock ≤ p.freshAt ∧ p.freshAt ≤ p.claimAt ∧ s.cache.belowCap

-- An envelope that was accepted is not presented, while it is fresh, once its nonce has run out.
def timely (s : Admissions) (p : Presentation) : Prop :=
  ∀ claimedAt, (p.envelope, claimedAt) ∈ s.accepted →
    (assertFreshTimestamp p.envelope.timestamp p.freshAt).isOk = true →
      p.claimAt - claimedAt < s.cache.ttlMs

def step (s : Admissions) (p : Presentation) : Option Admissions := some (s.present p)

structure Remembers (s : Admissions) : Prop where
  once : (s.accepted.map Prod.fst).Nodup
  held : ∀ envelope claimedAt, (envelope, claimedAt) ∈ s.accepted →
    (∃ since, claimedAt ≤ since ∧ s.cache.seen.get? envelope.nonce = some since) ∨
      s.cache.ttlMs ≤ s.clock - claimedAt
  past : ∀ envelope claimedAt, (envelope, claimedAt) ∈ s.accepted → claimedAt ≤ s.clock

theorem Remembers.present {s : Admissions} (held : s.Remembers) {p : Presentation}
    (ordinary : s.ordinary p) (timely : s.timely p) : (s.present p).Remembers := by
  obtain ⟨forward, after, below⟩ := ordinary
  unfold Admissions.present
  split
  next fresh =>
    have decided := NonceCache.claim_below below p.claimAt p.envelope.nonce
    have cleared := NonceCache.prune_below below p.claimAt
    unfold NonceCache.claim at decided ⊢
    dsimp only at decided ⊢
    rw [cleared, NonceCache.holds_expire] at decided ⊢
    -- An entry that is not expired outlives the pruning.
    have kept (nonce : String) (since : Int) (found : s.cache.seen.get? nonce = some since)
        (live : p.claimAt - since < s.cache.ttlMs) :
        (s.cache.expire p.claimAt).seen.get? nonce = some since :=
      s.cache.seen.get?_dropWhile _ _ _ found (by simp [live])
    have before (envelope : Envelope) (claimedAt : Int)
        (member : (envelope, claimedAt) ∈ s.accepted) :
        (∃ since, claimedAt ≤ since ∧
            (s.cache.expire p.claimAt).seen.get? envelope.nonce = some since) ∨
          s.cache.ttlMs ≤ p.claimAt - claimedAt := by
      rcases held.held envelope claimedAt member with ⟨since, later, found⟩ | out
      · by_cases live : p.claimAt - since < s.cache.ttlMs
        · exact .inl ⟨since, later, kept _ _ found live⟩
        · exact .inr (by omega)
      · exact .inr (by omega)
    have past (envelope : Envelope) (claimedAt : Int)
        (member : (envelope, claimedAt) ∈ s.accepted) : claimedAt ≤ p.claimAt := by
      have := held.past envelope claimedAt member
      omega
    split
    next refused => exact ⟨held.once, before, past⟩
    next won =>
      have free : s.cache.holds p.claimAt p.envelope.nonce = false := by simpa using won
      have unused : p.envelope ∉ s.accepted.map Prod.fst := by
        intro member
        obtain ⟨⟨envelope, claimedAt⟩, listed, rfl⟩ := List.mem_map.mp member
        have recent := timely claimedAt listed fresh
        rcases held.held p.envelope claimedAt listed with ⟨since, later, found⟩ | out
        · simp only [NonceCache.holds, found, Option.any_some, decide_eq_false_iff_not] at free
          omega
        · omega
      constructor
      case once =>
        rw [if_pos rfl, List.map_append, List.map_singleton]
        exact held.once.append (List.nodup_singleton _) (by simpa using unused)
      case held =>
        intro envelope claimedAt member
        rcases List.mem_append.mp member with earlier | now
        · rcases before envelope claimedAt earlier with ⟨since, later, found⟩ | out
          · by_cases same : envelope.nonce = p.envelope.nonce
            · refine .inl ⟨p.claimAt, past envelope claimedAt earlier, ?_⟩
              rw [same]
              exact OrderedMap.get?_set_self _ _ _
            · exact .inl ⟨since, later, (OrderedMap.get?_set _ _ _ _).trans (by rwa [if_neg same])⟩
          · exact .inr out
        · obtain ⟨rfl, rfl⟩ := Prod.mk.inj (List.mem_singleton.mp now)
          exact .inl ⟨p.claimAt, Int.le_refl _, OrderedMap.get?_set_self _ _ _⟩
      case past =>
        intro envelope claimedAt member
        rcases List.mem_append.mp member with earlier | now
        · exact past envelope claimedAt earlier
        · obtain ⟨rfl, rfl⟩ := Prod.mk.inj (List.mem_singleton.mp now)
          exact Int.le_refl _
  next =>
    constructor
    case once => exact held.once
    case held =>
      intro envelope claimedAt member
      rcases held.held envelope claimedAt member with kept | out
      · exact .inl kept
      · refine .inr ?_
        change s.cache.ttlMs ≤ p.freshAt - claimedAt
        omega
    case past =>
      intro envelope claimedAt member
      have := held.past envelope claimedAt member
      change claimedAt ≤ p.freshAt
      omega

theorem remembers_init (start : Int) : (init start).Remembers where
  once := List.nodup_nil
  held _ _ member := nomatch member
  past _ _ member := nomatch member

theorem accepted_at_most_once (start : Int) {s : Admissions}
    (run : Transition.Run step (fun s p => s.ordinary p ∧ s.timely p) (init start) s) :
    (s.accepted.map Prod.fst).Nodup := by
  have remembers : s.Remembers := by
    apply run.invariant (remembers_init start)
    intro t p t' held ok taken
    obtain rfl := Option.some.inj taken
    exact held.present ok.1 ok.2
  exact remembers.once

def demoEnvelope : Envelope := ⟨120000, "00112233445566778899aabbccddeeff"⟩

-- The last millisecond at which the nonce of the first presentation is held.
theorem accepted_at_most_once_held :
    ((((init 0).present ⟨demoEnvelope, 0, 0⟩).present
      ⟨demoEnvelope, 239999, 239999⟩).accepted.map Prod.fst).Nodup := by
  refine accepted_at_most_once 0 ?_
  refine .tail (.tail .refl ⟨⟨by decide, by decide, by decide⟩, ?_⟩ rfl)
    ⟨⟨by decide, by decide, by decide⟩, ?_⟩ rfl
  · intro _ member
    cases member
  · intro claimedAt member
    have first : ((init 0).present ⟨demoEnvelope, 0, 0⟩).accepted = [(demoEnvelope, 0)] := by
      decide
    rw [first, List.mem_singleton] at member
    obtain rfl := (Prod.mk.inj member).2
    intro _
    decide

theorem accepted_twice :
    ∃ s, Transition.Run step ordinary (init 0) s ∧ ¬ (s.accepted.map Prod.fst).Nodup := by
  refine ⟨((init 0).present ⟨demoEnvelope, 0, 0⟩).present ⟨demoEnvelope, 240000, 240000⟩, ?_, ?_⟩
  · exact .tail (.tail .refl ⟨by decide, by decide, by decide⟩ rfl)
      ⟨by decide, by decide, by decide⟩ rfl
  · decide

end Admissions

end X402Mesh.Gateway
