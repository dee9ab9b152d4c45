import Mathlib.Data.List.Nodup
import Mathlib.Logic.Function.Basic
import X402Mesh.Lib.Transition

set_option autoImplicit false

-- Two Redis structures hold the ledger: a record under each request id, and a capped list of the
-- ids with the newest first. A put is up to six commands, and those of other puts may come between
-- them.

namespace List

variable {α : Type}

def between (l : List α) (start stop : Int) : List α :=
  let index (i : Int) : Int := if i < 0 then i + l.length else i
  (l.take (index stop + 1).toNat).drop (index start).toNat

theorem between_from (l : List α) (start : Nat) : l.between start (-1) = l.drop start := by
  have last : (-1 + (l.length : Int) + 1).toNat = l.length := by omega
  have from_end : (-1 : Int) < 0 := by decide
  have from_front : ¬ (start : Int) < 0 := by omega
  simp only [between, if_pos from_end, if_neg from_front, last, Int.toNat_natCast, take_length]

theorem between_zero (l : List α) : l.between 0 (-1) = l := l.between_from 0

theorem between_upto (l : List α) {count : Nat} (pos : 0 < count) :
    l.between 0 ((count : Int) - 1) = l.take count := by
  have inside : ¬ (count : Int) - 1 < 0 := by omega
  have last : ((count : Int) - 1 + 1).toNat = count := by omega
  simp only [between, if_neg inside, last]
  rfl

theorem filterMap_present {β : Type} {f : α → Option β} {l : List α}
    (present : ∀ a ∈ l, (f a).isSome) : (l.filterMap f).map some = l.map f := by
  induction l with
  | nil => rfl
  | cons a rest ih =>
    obtain ⟨b, found⟩ := Option.isSome_iff_exists.mp (present a List.mem_cons_self)
    have tail := ih fun other member => present other (List.mem_cons_of_mem a member)
    rw [List.filterMap_cons_some found, List.map_cons, List.map_cons, tail, found]

theorem between_sublist (l : List α) (start stop : Int) : (l.between start stop).Sublist l :=
  (List.drop_sublist _ _).trans (List.take_sublist _ _)

end List

namespace X402Mesh.Registry

-- `records` is what `JSON.parse` reads under `ledger:record:<requestId>`, and `order` is `ledger:order`.
structure LedgerKeys (ρ : Type) where
  records : String → Option ρ
  order : List String

namespace LedgerKeys

variable {ρ : Type}

def empty : LedgerKeys ρ := ⟨fun _ => none, []⟩

def get (keys : LedgerKeys ρ) (requestId : String) : Option ρ := keys.records requestId

def mget (keys : LedgerKeys ρ) (ids : List String) : List (Option ρ) := ids.map keys.records

def set (keys : LedgerKeys ρ) (requestId : String) (record : ρ) : LedgerKeys ρ :=
  { keys with records := Function.update keys.records requestId (some record) }

def del (keys : LedgerKeys ρ) (ids : List String) : LedgerKeys ρ :=
  { keys with records := fun id => if id ∈ ids then none else keys.records id }

def lpush (keys : LedgerKeys ρ) (requestId : String) : LedgerKeys ρ :=
  { keys with order := requestId :: keys.order }

def lrange (keys : LedgerKeys ρ) (start stop : Int) : List String := keys.order.between start stop

def ltrim (keys : LedgerKeys ρ) (start stop : Int) : LedgerKeys ρ :=
  { keys with order := keys.order.between start stop }

def put (keys : LedgerKeys ρ) (requestId : String) (record : ρ) (maxEntries : Nat) : LedgerKeys ρ :=
  let existed := (keys.get requestId).isSome
  let keys := keys.set requestId record
  if existed then keys
  else
    let keys := keys.lpush requestId
    let overflow := keys.lrange maxEntries (-1)
    if overflow.length > 0 then (keys.ltrim 0 ((maxEntries : Int) - 1)).del overflow else keys

def loadRecent (keys : LedgerKeys ρ) (limit : Nat) : List ρ :=
  let ids := keys.lrange 0 ((limit : Int) - 1)
  if ids.length = 0 then [] else (keys.mget ids).filterMap id

end LedgerKeys

/-- What a put has from the commands it has sent. -/
inductive PutPoint (ρ : Type)
  | idle
  | start (record : ρ)
  | got (record : ρ) (existed : Bool)
  | written
  | pushed
  | ranged (overflow : List String)
  | trimmed (overflow : List String)

namespace PutPoint

variable {ρ : Type}

-- The ids whose records the put is about to delete.
def overflow : PutPoint ρ → List String
  | .ranged overflow => overflow
  | .trimmed overflow => overflow
  | _ => []

-- A put that found no record and has not yet listed its id.
def inserting : PutPoint ρ → Prop
  | .got _ existed => existed = false
  | .written => True
  | _ => False

end PutPoint

def LedgerKeys.send {ρ : Type} (keys : LedgerKeys ρ) (requestId : String) (maxEntries : Nat) :
    PutPoint ρ → Option (LedgerKeys ρ × PutPoint ρ)
  | .idle => none
  | .start record => some (keys, .got record (keys.get requestId).isSome)
  | .got record existed => some (keys.set requestId record, if existed then .idle else .written)
  | .written => some (keys.lpush requestId, .pushed)
  | .pushed =>
    let overflow := keys.lrange maxEntries (-1)
    some (keys, if overflow.length > 0 then .ranged overflow else .idle)
  | .ranged overflow => some (keys.ltrim 0 ((maxEntries : Int) - 1), .trimmed overflow)
  | .trimmed overflow => some (keys.del overflow, .idle)

/-- The puts of one id run one after another, so each id has at most one under way. -/
structure Writers (ρ : Type) where
  keys : LedgerKeys ρ
  points : String → PutPoint ρ

inductive PutAction (ρ : Type)
  | put (requestId : String) (record : ρ)
  | command (requestId : String)

namespace Writers

variable {ρ : Type}

def start (keys : LedgerKeys ρ) : Writers ρ := ⟨keys, fun _ => .idle⟩

def completed (writers : Writers ρ) : Prop := ∀ id, writers.points id = .idle

def goTo (writers : Writers ρ) (requestId : String) (keys : LedgerKeys ρ) (point : PutPoint ρ) :
    Writers ρ :=
  ⟨keys, Function.update writers.points requestId point⟩

def step (maxEntries : Nat) (writers : Writers ρ) : PutAction ρ → Option (Writers ρ)
  | .put requestId record =>
    match writers.points requestId with
    | .idle => some (writers.goTo requestId writers.keys (.start record))
    | _ => none
  | .command requestId =>
    (writers.keys.send requestId maxEntries (writers.points requestId)).map fun (keys, point) =>
      writers.goTo requestId keys point

-- Some put is about to delete the id's record.
def doomed (writers : Writers ρ) (id : String) : Prop :=
  ∃ other, id ∈ (writers.points other).overflow

/-- No command undoes what another put is doing: a rewrite finds its record listed or about to be
deleted, a trim drops only ids whose records some put is about to delete, and a delete takes no
record whose id is listed or about to be. -/
def steady (maxEntries : Nat) (writers : Writers ρ) : PutAction ρ → Prop
  | .put _ _ => True
  | .command requestId =>
    match writers.points requestId with
    | .got _ true => requestId ∈ writers.keys.order ∨ writers.doomed requestId
    | .ranged _ =>
      ∀ id ∈ writers.keys.order,
        id ∉ (writers.keys.ltrim 0 ((maxEntries : Int) - 1)).order → writers.doomed id
    | .trimmed overflow =>
      ∀ id ∈ overflow, id ∉ writers.keys.order ∧ writers.points id ≠ .written
    | _ => True

end Writers

/-- The records are those of the listed ids, and the list is within the cap. -/
structure LedgerKeys.Consistent {ρ : Type} (keys : LedgerKeys ρ) (maxEntries : Nat) : Prop where
  listed : ∀ id, (keys.records id).isSome ↔ id ∈ keys.order
  nodup : keys.order.Nodup
  capped : keys.order.length ≤ maxEntries

namespace LedgerKeys

variable {ρ : Type}

theorem empty_consistent (maxEntries : Nat) : (empty : LedgerKeys ρ).Consistent maxEntries :=
  ⟨fun _ => by simp [empty], List.nodup_nil, Nat.zero_le _⟩

theorem lrange_overflow (keys : LedgerKeys ρ) (maxEntries : Nat) :
    keys.lrange maxEntries (-1) = keys.order.drop maxEntries :=
  keys.order.between_from maxEntries

-- A cap of zero asks `LTRIM` to keep everything.
theorem order_ltrim (keys : LedgerKeys ρ) (maxEntries : Nat) :
    (keys.ltrim 0 ((maxEntries : Int) - 1)).order =
      if maxEntries = 0 then keys.order else keys.order.take maxEntries := by
  split
  next none =>
    subst none
    exact keys.order.between_zero
  next some => exact keys.order.between_upto (Nat.pos_of_ne_zero some)

theorem ltrim_within (keys : LedgerKeys ρ) {maxEntries : Nat}
    (within : keys.order.length ≤ maxEntries) : keys.ltrim 0 ((maxEntries : Int) - 1) = keys := by
  have all : (keys.ltrim 0 ((maxEntries : Int) - 1)).order = keys.order := by
    rw [order_ltrim]
    split
    next => rfl
    next => exact List.take_of_length_le within
  exact congrArg (LedgerKeys.mk keys.records) all

theorem del_nil (keys : LedgerKeys ρ) : keys.del [] = keys := by
  simp [del]

theorem loadRecent_eq (keys : LedgerKeys ρ) (limit : Nat) :
    keys.loadRecent limit = (keys.ltrim 0 ((limit : Int) - 1)).order.filterMap keys.records := by
  have same : keys.lrange 0 ((limit : Int) - 1) = (keys.ltrim 0 ((limit : Int) - 1)).order := rfl
  unfold loadRecent
  dsimp only
  rw [same]
  split
  next empty => rw [List.length_eq_zero_iff.mp empty, List.filterMap_nil]
  next => rw [mget, List.filterMap_map]; rfl

theorem Consistent.loadRecent {keys : LedgerKeys ρ} {maxEntries : Nat}
    (consistent : keys.Consistent maxEntries) :
    (keys.loadRecent maxEntries).map some = keys.order.map keys.records := by
  rw [loadRecent_eq, ltrim_within keys consistent.capped]
  exact List.filterMap_present fun id member => (consistent.listed id).mpr member

theorem put_known {keys : LedgerKeys ρ} {requestId : String}
    (known : (keys.records requestId).isSome) (record : ρ) (maxEntries : Nat) :
    keys.put requestId record maxEntries = keys.set requestId record := by
  rw [put, get]
  exact if_pos known

theorem put_new {keys : LedgerKeys ρ} {requestId : String}
    (absent : keys.records requestId = none) (record : ρ) (maxEntries : Nat) :
    keys.put requestId record maxEntries =
      ((((keys.set requestId record).lpush requestId).ltrim 0 ((maxEntries : Int) - 1)).del
        ((requestId :: keys.order).drop maxEntries)) := by
  have overflow : ((keys.set requestId record).lpush requestId).lrange maxEntries (-1) =
      (requestId :: keys.order).drop maxEntries := lrange_overflow _ _
  simp only [put, get, absent, Option.isSome_none, Bool.false_eq_true, if_false, overflow]
  split
  next => rfl
  next none_over =>
    have short : (requestId :: keys.order).drop maxEntries = [] :=
      List.length_eq_zero_iff.mp (Nat.eq_zero_of_not_pos none_over)
    have within := List.drop_eq_nil_iff.mp short
    rw [short, del_nil, ltrim_within _ within]

theorem records_put {keys : LedgerKeys ρ} {requestId : String}
    (absent : keys.records requestId = none) (record : ρ) (maxEntries : Nat) (id : String) :
    (keys.put requestId record maxEntries).records id =
      if id ∈ (requestId :: keys.order).drop maxEntries then none
      else if id = requestId then some record else keys.records id := by
  rw [put_new absent]
  simp only [del, ltrim, lpush, set, Function.update_apply]

theorem order_put {keys : LedgerKeys ρ} {requestId : String}
    (absent : keys.records requestId = none) (record : ρ) {maxEntries : Nat}
    (some : 0 < maxEntries) :
    (keys.put requestId record maxEntries).order = (requestId :: keys.order).take maxEntries := by
  rw [put_new absent]
  exact (order_ltrim _ _).trans (if_neg (Nat.ne_of_gt some))

-- A put that has the keys to itself.
theorem send_alone (keys : LedgerKeys ρ) (requestId : String) (record : ρ) (maxEntries : Nat) :
    ∃ n, Transition.replay
      (fun (s : LedgerKeys ρ × PutPoint ρ) (_ : Unit) => s.1.send requestId maxEntries s.2)
      (keys, .start record) (List.replicate n ()) =
        some (keys.put requestId record maxEntries, .idle) := by
  cases existed : (keys.get requestId).isSome with
  | true => exact ⟨2, by simp [Transition.replay, List.replicate, send, put, existed]⟩
  | false =>
    by_cases beyond :
        (((keys.set requestId record).lpush requestId).lrange maxEntries (-1)).length > 0
    · refine ⟨6, ?_⟩
      simp only [Transition.replay, List.replicate, send, put, existed, if_pos beyond,
        Option.bind_some, Bool.false_eq_true, if_false]
    · refine ⟨4, ?_⟩
      simp only [Transition.replay, List.replicate, send, put, existed, if_neg beyond,
        Option.bind_some, Bool.false_eq_true, if_false]

end LedgerKeys

namespace Writers

variable {ρ : Type} {maxEntries : Nat}

structure Tidy (maxEntries : Nat) (writers : Writers ρ) : Prop where
  nodup : writers.keys.order.Nodup
  stored : ∀ id ∈ writers.keys.order, (writers.keys.records id).isSome
  reached : ∀ id, (writers.keys.records id).isSome →
    id ∈ writers.keys.order ∨ writers.doomed id ∨ writers.points id = .written
  unlisted : ∀ id, (writers.points id).inserting → id ∉ writers.keys.order
  written : ∀ id, writers.points id = .written → (writers.keys.records id).isSome
  capped : maxEntries < writers.keys.order.length →
    ∃ id, writers.points id = .pushed ∨
      ∃ beyond ∈ (writers.points id).overflow, beyond ∈ writers.keys.order

theorem points_goTo (writers : Writers ρ) (requestId : String) (keys : LedgerKeys ρ)
    (point : PutPoint ρ) (id : String) :
    (writers.goTo requestId keys point).points id =
      if id = requestId then point else writers.points id := by
  simp [goTo, Function.update_apply]

theorem start_tidy {keys : LedgerKeys ρ} (consistent : keys.Consistent maxEntries) :
    (start keys).Tidy maxEntries where
  nodup := consistent.nodup
  stored id := (consistent.listed id).mpr
  reached id present := .inl ((consistent.listed id).mp present)
  unlisted _ inserting := inserting.elim
  written _ point := nomatch point
  capped beyond := absurd consistent.capped (by simpa [start] using beyond)

theorem Tidy.consistent {writers : Writers ρ} (tidy : writers.Tidy maxEntries)
    (completed : writers.completed) : writers.keys.Consistent maxEntries where
  nodup := tidy.nodup
  listed id := by
    constructor
    · intro present
      rcases tidy.reached id present with listed | ⟨other, doomed⟩ | point
      next => exact listed
      next => simp [completed other, PutPoint.overflow] at doomed
      next => simp [completed id] at point
    · exact tidy.stored id
  capped := by
    by_contra beyond
    obtain ⟨id, point | ⟨_, doomed, -⟩⟩ := tidy.capped (Nat.lt_of_not_le beyond)
    next => simp [completed id] at point
    next => simp [completed id, PutPoint.overflow] at doomed

theorem doomed_goTo (writers : Writers ρ) {requestId : String} (keys : LedgerKeys ρ)
    {point : PutPoint ρ} (same : point.overflow = (writers.points requestId).overflow)
    (id : String) : (writers.goTo requestId keys point).doomed id ↔ writers.doomed id := by
  apply exists_congr
  intro other
  rw [points_goTo]
  split
  next own => rw [same, own]
  next => rfl

-- What holds of the other ids before the command, and of this one after it, holds of all.
theorem unlisted_goTo {writers : Writers ρ} {requestId : String} {keys : LedgerKeys ρ}
    {point : PutPoint ρ} (own : point.inserting → requestId ∉ keys.order)
    (others : ∀ id, id ≠ requestId → (writers.points id).inserting → id ∉ keys.order) (id : String) :
    ((writers.goTo requestId keys point).points id).inserting → id ∉ keys.order := by
  rw [points_goTo]
  split
  next mine =>
    rw [mine]
    exact own
  next other => exact others id other

theorem written_goTo {writers : Writers ρ} {requestId : String} {keys : LedgerKeys ρ}
    {point : PutPoint ρ} (own : point = .written → (keys.records requestId).isSome)
    (others : ∀ id, writers.points id = .written → (keys.records id).isSome) (id : String) :
    (writers.goTo requestId keys point).points id = .written → (keys.records id).isSome := by
  rw [points_goTo]
  split
  next mine =>
    rw [mine]
    exact own
  next => exact others id

theorem written_other {writers : Writers ρ} {requestId id : String} {keys : LedgerKeys ρ}
    {point : PutPoint ρ} (written : writers.points id = .written)
    (not_written : writers.points requestId ≠ .written) :
    (writers.goTo requestId keys point).points id = .written := by
  have other : id ≠ requestId := by
    rintro rfl
    exact not_written written
  rw [points_goTo, if_neg other]
  exact written

theorem doomed_other {writers : Writers ρ} {requestId id : String} {keys : LedgerKeys ρ}
    {point : PutPoint ρ} (doomed : writers.doomed id)
    (safe : id ∉ (writers.points requestId).overflow) :
    (writers.goTo requestId keys point).doomed id := by
  obtain ⟨other, doomed⟩ := doomed
  have theirs : other ≠ requestId := by
    rintro rfl
    exact safe doomed
  refine ⟨other, ?_⟩
  rw [points_goTo, if_neg theirs]
  exact doomed

-- Where the command does not touch the list, another put still sees to what is beyond the cap.
theorem Tidy.capped_other {writers : Writers ρ} (tidy : writers.Tidy maxEntries)
    {requestId : String} {keys : LedgerKeys ρ} {point : PutPoint ρ}
    (order : keys.order = writers.keys.order) (not_pushed : writers.points requestId ≠ .pushed)
    (gone : ∀ id ∈ (writers.points requestId).overflow, id ∉ writers.keys.order)
    (beyond : maxEntries < keys.order.length) :
    ∃ id, (writers.goTo requestId keys point).points id = .pushed ∨
      ∃ beyond ∈ ((writers.goTo requestId keys point).points id).overflow, beyond ∈ keys.order := by
  rw [order] at beyond ⊢
  obtain ⟨id, found⟩ := tidy.capped beyond
  have other : id ≠ requestId := by
    rintro rfl
    rcases found with pushed | ⟨_, doomed, listed⟩
    next => exact not_pushed pushed
    next => exact gone _ doomed listed
  refine ⟨id, ?_⟩
  rw [points_goTo, if_neg other]
  exact found

-- A put that reads, or has yet to send a command.
theorem Tidy.reads {writers : Writers ρ} (tidy : writers.Tidy maxEntries) {requestId : String}
    {point : PutPoint ρ} (before : (writers.points requestId).overflow = [])
    (after : point.overflow = []) (not_pushed : writers.points requestId ≠ .pushed)
    (not_written : writers.points requestId ≠ .written) (unwritten : point ≠ .written)
    (unlisted : point.inserting → requestId ∉ writers.keys.order) :
    (writers.goTo requestId writers.keys point).Tidy maxEntries where
  nodup := tidy.nodup
  stored := tidy.stored
  reached id present := by
    rw [doomed_goTo _ _ (by rw [before, after])]
    rcases tidy.reached id present with listed | doomed | written
    next => exact .inl listed
    next => exact .inr (.inl doomed)
    next => exact .inr (.inr (written_other written not_written))
  unlisted := unlisted_goTo unlisted fun id _ => tidy.unlisted id
  written := written_goTo (fun written => absurd written unwritten) tidy.written
  capped := tidy.capped_other rfl not_pushed (by simp [before])

theorem Tidy.set {writers : Writers ρ} (tidy : writers.Tidy maxEntries) {requestId : String}
    {record : ρ} {existed : Bool} (point : writers.points requestId = .got record existed)
    (known : existed = true → requestId ∈ writers.keys.order ∨ writers.doomed requestId) :
    (writers.goTo requestId (writers.keys.set requestId record)
      (if existed then .idle else .written)).Tidy maxEntries := by
  have same : (if existed then .idle else .written : PutPoint ρ).overflow =
      (writers.points requestId).overflow := by
    cases existed <;> simp [point, PutPoint.overflow]
  have kept (id : String) : (writers.keys.records id).isSome →
      ((writers.keys.set requestId record).records id).isSome := by
    intro present
    simp only [LedgerKeys.set, Function.update_apply]
    split
    next => rfl
    next => exact present
  have own : ((writers.keys.set requestId record).records requestId).isSome := by
    simp [LedgerKeys.set]
  constructor
  case nodup => exact tidy.nodup
  case stored =>
    intro id listed
    exact kept id (tidy.stored id listed)
  case reached =>
    intro id present
    rw [doomed_goTo _ _ same, points_goTo]
    by_cases mine : id = requestId
    · subst mine
      rw [if_pos rfl]
      cases existed with
      | true => exact (known rfl).imp_right .inl
      | false => exact .inr (.inr rfl)
    · rw [if_neg mine]
      apply tidy.reached id
      simpa [goTo, LedgerKeys.set, Function.update_apply, mine] using present
  case unlisted =>
    apply unlisted_goTo
    next =>
      cases existed with
      | true => exact fun inserting => inserting.elim
      | false =>
        intro _
        exact tidy.unlisted requestId (by rw [point]; rfl)
    next => exact fun id _ => tidy.unlisted id
  case written => exact written_goTo (fun _ => own) fun id written => kept id (tidy.written id written)
  case capped => exact tidy.capped_other rfl (by simp [point]) (by simp [point, PutPoint.overflow])

theorem Tidy.lpush {writers : Writers ρ} (tidy : writers.Tidy maxEntries) {requestId : String}
    (point : writers.points requestId = .written) :
    (writers.goTo requestId (writers.keys.lpush requestId) .pushed).Tidy maxEntries := by
  have same : (PutPoint.pushed : PutPoint ρ).overflow = (writers.points requestId).overflow := by
    simp [point, PutPoint.overflow]
  have fresh : requestId ∉ writers.keys.order := tidy.unlisted requestId (by rw [point]; trivial)
  constructor
  case nodup => exact List.nodup_cons.mpr ⟨fresh, tidy.nodup⟩
  case stored =>
    intro id listed
    rcases List.mem_cons.mp listed with rfl | listed
    next => exact tidy.written id point
    next => exact tidy.stored id listed
  case reached =>
    intro id present
    rw [doomed_goTo _ _ same, points_goTo]
    by_cases mine : id = requestId
    · exact .inl (List.mem_cons.mpr (.inl mine))
    · rw [if_neg mine]
      exact (tidy.reached id present).imp_left (List.mem_cons_of_mem requestId)
  case unlisted =>
    apply unlisted_goTo
    next => exact fun inserting => inserting.elim
    next =>
      intro id other inserting listed
      rcases List.mem_cons.mp listed with mine | listed
      next => exact other mine
      next => exact tidy.unlisted id inserting listed
  case written => exact written_goTo (fun written => nomatch written) tidy.written
  case capped =>
    intro _
    refine ⟨requestId, .inl ?_⟩
    rw [points_goTo, if_pos rfl]

theorem Tidy.lrange {writers : Writers ρ} (tidy : writers.Tidy maxEntries) {requestId : String}
    (point : writers.points requestId = .pushed) {next : PutPoint ρ}
    (idle_or : next = .idle ∨ next = .ranged (writers.keys.order.drop maxEntries))
    (seen : next = .idle → writers.keys.order.drop maxEntries = []) :
    (writers.goTo requestId writers.keys next).Tidy maxEntries := by
  have unwritten : next ≠ .written := by
    rcases idle_or with rfl | rfl <;> simp
  constructor
  case nodup => exact tidy.nodup
  case stored => exact tidy.stored
  case reached =>
    intro id present
    rcases tidy.reached id present with listed | doomed | written
    next => exact .inl listed
    next => exact .inr (.inl (doomed_other doomed (by simp [point, PutPoint.overflow])))
    next => exact .inr (.inr (written_other written (by simp [point])))
  case unlisted =>
    apply unlisted_goTo
    next =>
      intro inserting
      rcases idle_or with rfl | rfl <;> exact inserting.elim
    next => exact fun id _ => tidy.unlisted id
  case written => exact written_goTo (fun written => absurd written unwritten) tidy.written
  case capped =>
    intro beyond
    -- The put takes over what its own push left beyond the cap.
    have beyond : writers.keys.order.drop maxEntries ≠ [] := by
      intro empty
      have short := List.drop_eq_nil_iff.mp empty
      exact absurd beyond (Nat.not_lt_of_le short)
    obtain ⟨id, member⟩ := List.exists_mem_of_ne_nil _ beyond
    have ranged : next = .ranged (writers.keys.order.drop maxEntries) :=
      idle_or.resolve_left fun idle => beyond (seen idle)
    refine ⟨requestId, .inr ⟨id, ?_, List.mem_of_mem_drop member⟩⟩
    rw [points_goTo, if_pos rfl, ranged]
    exact member

theorem Tidy.ltrim {writers : Writers ρ} (tidy : writers.Tidy maxEntries) {requestId : String}
    {overflow : List String} (point : writers.points requestId = .ranged overflow)
    (dropped : ∀ id ∈ writers.keys.order,
      id ∉ (writers.keys.ltrim 0 ((maxEntries : Int) - 1)).order → writers.doomed id) :
    (writers.goTo requestId (writers.keys.ltrim 0 ((maxEntries : Int) - 1))
      (.trimmed overflow)).Tidy maxEntries := by
  have same : (PutPoint.trimmed overflow : PutPoint ρ).overflow =
      (writers.points requestId).overflow := by
    simp [point, PutPoint.overflow]
  have fewer : (writers.keys.ltrim 0 ((maxEntries : Int) - 1)).order.Sublist writers.keys.order :=
    List.between_sublist _ _ _
  constructor
  case nodup => exact tidy.nodup.sublist fewer
  case stored => exact fun id listed => tidy.stored id (fewer.mem listed)
  case reached =>
    intro id present
    rw [doomed_goTo _ _ same]
    rcases tidy.reached id present with listed | doomed | written
    next =>
      by_cases kept : id ∈ (writers.keys.ltrim 0 ((maxEntries : Int) - 1)).order
      · exact .inl kept
      · exact .inr (.inl (dropped id listed kept))
    next => exact .inr (.inl doomed)
    next => exact .inr (.inr (written_other written (by simp [point])))
  case unlisted =>
    apply unlisted_goTo
    next => exact fun inserting => inserting.elim
    next => exact fun id _ inserting listed => tidy.unlisted id inserting (fewer.mem listed)
  case written => exact written_goTo (fun written => nomatch written) tidy.written
  case capped =>
    intro beyond
    replace beyond : maxEntries < (writers.keys.ltrim 0 ((maxEntries : Int) - 1)).order.length := beyond
    have all : (writers.keys.ltrim 0 ((maxEntries : Int) - 1)).order = writers.keys.order := by
      rw [LedgerKeys.order_ltrim] at beyond ⊢
      split
      next => rfl
      next some =>
        rw [if_neg some, List.length_take] at beyond
        omega
    rw [all] at beyond
    obtain ⟨id, found⟩ := tidy.capped beyond
    refine ⟨id, ?_⟩
    rw [points_goTo]
    split
    next mine =>
      subst mine
      rw [point] at found
      refine .inr ?_
      simpa [goTo, all, PutPoint.overflow] using found
    next => simpa [goTo, all] using found

theorem Tidy.del {writers : Writers ρ} (tidy : writers.Tidy maxEntries) {requestId : String}
    {overflow : List String} (point : writers.points requestId = .trimmed overflow)
    (gone : ∀ id ∈ overflow, id ∉ writers.keys.order ∧ writers.points id ≠ .written) :
    (writers.goTo requestId (writers.keys.del overflow) .idle).Tidy maxEntries := by
  have kept {id : String} (safe : id ∉ overflow) :
      (writers.keys.del overflow).records id = writers.keys.records id := by
    simp [LedgerKeys.del, safe]
  constructor
  case nodup => exact tidy.nodup
  case stored =>
    intro id listed
    have safe : id ∉ overflow := fun member => (gone id member).1 listed
    replace listed : id ∈ writers.keys.order := listed
    simpa only [goTo, kept safe] using tidy.stored id listed
  case reached =>
    intro id present
    have safe : id ∉ overflow := by
      intro member
      simp [goTo, LedgerKeys.del, member] at present
    replace present : ((writers.keys.del overflow).records id).isSome := present
    rw [kept safe] at present
    rcases tidy.reached id present with listed | doomed | written
    next => exact .inl listed
    next => exact .inr (.inl (doomed_other doomed (by rw [point]; exact safe)))
    next => exact .inr (.inr (written_other written (by simp [point])))
  case unlisted =>
    apply unlisted_goTo
    next => exact fun inserting => inserting.elim
    next => exact fun id _ => tidy.unlisted id
  case written =>
    apply written_goTo
    next => exact fun written => nomatch written
    next =>
      intro id written
      have safe : id ∉ overflow := fun member => (gone id member).2 written
      simpa only [kept safe] using tidy.written id written
  case capped =>
    apply tidy.capped_other rfl (by simp [point])
    rw [point]
    exact fun id member => (gone id member).1

theorem Tidy.step {writers writers' : Writers ρ} (tidy : writers.Tidy maxEntries)
    {action : PutAction ρ} (steady : writers.steady maxEntries action)
    (taken : writers.step maxEntries action = some writers') : writers'.Tidy maxEntries := by
  cases action with
  | put requestId record =>
    cases point : writers.points requestId with
    | idle =>
      simp only [Writers.step, point, Option.some.injEq] at taken
      subst taken
      apply tidy.reads <;> simp [point, PutPoint.overflow, PutPoint.inserting]
    | _ => simp [Writers.step, point] at taken
  | command requestId =>
    cases point : writers.points requestId with
    | idle => simp [Writers.step, LedgerKeys.send, point] at taken
    | start record =>
      simp only [Writers.step, LedgerKeys.send, point, Option.map_some, Option.some.injEq] at taken
      subst taken
      apply tidy.reads <;> simp [point, PutPoint.overflow, PutPoint.inserting]
      intro absent listed
      have present := tidy.stored requestId listed
      rw [LedgerKeys.get] at absent
      simp [absent] at present
    | got record existed =>
      simp only [Writers.step, LedgerKeys.send, point, Option.map_some, Option.some.injEq] at taken
      subst taken
      apply tidy.set point
      rintro rfl
      simpa only [Writers.steady, point] using steady
    | written =>
      simp only [Writers.step, LedgerKeys.send, point, Option.map_some, Option.some.injEq] at taken
      subst taken
      exact tidy.lpush point
    | pushed =>
      simp only [Writers.step, LedgerKeys.send, point, Option.map_some, Option.some.injEq,
        LedgerKeys.lrange_overflow] at taken
      subst taken
      apply tidy.lrange point
      next =>
        split
        next => exact .inr rfl
        next => exact .inl rfl
      next =>
        split
        next => exact fun idle => nomatch idle
        next none => exact fun _ => List.length_eq_zero_iff.mp (Nat.eq_zero_of_not_pos none)
    | ranged overflow =>
      simp only [Writers.step, LedgerKeys.send, point, Option.map_some, Option.some.injEq] at taken
      subst taken
      apply tidy.ltrim point
      simpa only [Writers.steady, point] using steady
    | trimmed overflow =>
      simp only [Writers.step, LedgerKeys.send, point, Option.map_some, Option.some.injEq] at taken
      subst taken
      apply tidy.del point
      simpa only [Writers.steady, point] using steady

theorem Tidy.run {writers writers' : Writers ρ} (tidy : writers.Tidy maxEntries)
    (run : Transition.Run (Writers.step maxEntries) (Writers.steady maxEntries) writers writers') :
    writers'.Tidy maxEntries :=
  run.invariant tidy fun _ _ _ held steady taken => held.step steady taken

/-- Puts that do not undo each other leave the records of exactly the listed ids, within the cap. -/
theorem puts_consistent {keys : LedgerKeys ρ} {writers : Writers ρ}
    (consistent : keys.Consistent maxEntries)
    (run : Transition.Run (step maxEntries) (steady maxEntries) (start keys) writers)
    (completed : writers.completed) :
    writers.keys.Consistent maxEntries ∧
      (writers.keys.loadRecent maxEntries).map some =
        writers.keys.order.map writers.keys.records := by
  have tidy := (start_tidy consistent).run run
  have settled := tidy.consistent completed
  exact ⟨settled, settled.loadRecent⟩

-- One put after another, and the second evicts the first.
theorem puts_consistent_evicting : ∃ writers : Writers String, writers.completed ∧
    writers.keys.order = ["b"] ∧ writers.keys.records "a" = none ∧
      writers.keys.Consistent 1 := by
  have first : Transition.Run (step 1) (steady 1) (start (.empty : LedgerKeys String)) _ :=
    ((((Transition.Run.refl.tail (a := .put "a" "first") (by exact trivial) rfl).tail
      (a := .command "a") (by exact trivial) rfl).tail
      (a := .command "a") (by exact trivial) rfl).tail
      (a := .command "a") (by exact trivial) rfl).tail
      (a := .command "a") (by exact trivial) rfl
  have pushed := ((((first.tail (a := .put "b" "second") (by exact trivial) rfl).tail
      (a := .command "b") (by exact trivial) rfl).tail
      (a := .command "b") (by exact trivial) rfl).tail
      (a := .command "b") (by exact trivial) rfl).tail
      (a := .command "b") (by exact trivial) rfl
  have trimmed := pushed.tail (a := .command "b") (by
    intro id listed dropped
    refine ⟨"b", ?_⟩
    rcases List.mem_cons.mp listed with rfl | old
    next => exact absurd List.mem_cons_self dropped
    next => exact old) rfl
  have run := trimmed.tail (a := .command "b") (by
    intro id member
    obtain rfl := List.mem_singleton.mp member
    exact ⟨by decide, nofun⟩) rfl
  refine ⟨_, ?completed, rfl, rfl,
    (puts_consistent (LedgerKeys.empty_consistent 1) run ?completed).1⟩
  intro id
  by_cases b : id = "b"
  · subst b
    rfl
  by_cases a : id = "a"
  · subst a
    rfl
  simp [goTo, a, b, start]

-- The put of `b` reads its overflow before the push of `c` and trims after it.
def leak : List (PutAction String) :=
  [.put "a" "first", .command "a", .command "a", .command "a", .command "a",
    .put "b" "second", .command "b", .command "b", .command "b", .command "b",
    .put "c" "third", .command "c", .command "c", .command "c",
    .command "b", .command "b", .command "c"]

theorem puts_leak : ∃ writers : Writers String,
    Transition.Run (step 1) (fun _ _ => True) (start .empty) writers ∧ writers.completed ∧
      writers.keys.order = ["c"] ∧ writers.keys.records "b" = some "second" := by
  refine ⟨_, Transition.run_of_replay leak (Transition.allows_of_forall leak fun _ _ _ => trivial)
    rfl, ?_, rfl, rfl⟩
  intro id
  by_cases c : id = "c"
  · subst c
    rfl
  by_cases b : id = "b"
  · subst b
    rfl
  by_cases a : id = "a"
  · subst a
    rfl
  simp [goTo, a, b, c, start]

end Writers

end X402Mesh.Registry
