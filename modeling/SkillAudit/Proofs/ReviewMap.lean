import Mathlib
import SkillAudit.Proofs.ByteOrder
import SkillAudit.Proofs.FileTree
import SkillAudit.Proofs.PathEvaluation
import SkillAudit.Proofs.PendingReviews
import SkillAudit.Proofs.StatePlaces
import SkillAudit.Proofs.WatchHistory

/-!
The file of pending reviews as a map from names to reviews. Whoever calls on it, from a missing file
on, finds under a name the review that was recorded last and has not been taken since.
-/
namespace SkillAudit

namespace World

theorem put_put (w : World) (p : Place) (n m : Node) : (w.put p n).put p m = w.put p m := by
  simp [put, List.filter_filter]

end World

namespace Store
variable {w x y : World} {path : String} {r : Route} {bytes : ByteArray}

/-- Where one content can be written, so can any other, before it and after it. -/
theorem write_other (h : write path bytes x = (.ok (), y)) (hr : x.route? path = some r)
    (hown : r.place ∉ r.links) (other : ByteArray) :
    write path other x = (.ok (), y.put r.place (.file other)) ∧
      write path other y = (.ok (), y.put r.place (.file other)) := by
  have hholds := (write_ok h hr hown).2
  obtain ⟨_, v, hdirs, hchange⟩ := Act.bind_ok h
  obtain ⟨hslash, spot, hspot, hdir, rfl⟩ := World.replaceFile_ok (Act.change_ok hchange)
  have hplace : spot.place = r.place := by
    have hgrows := makeDirs_grows (directoryOf path) x
    rw [hdirs] at hgrows
    obtain ⟨trail, hleads⟩ := World.leads_of_resolve hspot
    rw [hslash] at hleads
    have hroute := (route?_of_grows hgrows path).trans hr
    exact congrArg Route.place (Option.some.inj ((World.course_of_leads hleads).symm.trans hroute))
  constructor
  · rw [write, Act.bind_of_ok hdirs, ← hplace, World.put_put]
    simp only [Act.change, World.replaceFile_of_resolve hslash hspot hdir other]
  · exact write_of_resolve hslash hholds.found (by simp) other

end Store

namespace Pending

inductive Request where
  | record (now : Instant) (d : Decision) (root : String) (source : Option String)
  | take (name : String)
  | get (name : String)
  | list

inductive Reply where
  | recorded
  | review (found : Option PendingReview)
  | reviews (all : List PendingReview)

namespace Request

def perform (path : String) : Request → Act Reply
  | record now d root source => do
    Pending.record path now d root source
    return .recorded
  | take name => do return .review (← Pending.take path name)
  | get name => fun w => (.ok (.review (get? w path name)), w)
  | list => fun w => (.ok (.reviews (Pending.list w path)), w)

def name? : Request → Option String
  | record _ d _ _ => some d.name
  | take name => some name
  | get name => some name
  | list => none

def Fits : Request → Prop
  | record _ d _ _ => d.Fits
  | _ => True

/-- A call that decides what is under a name: it records a review there, or takes it away. -/
def Settles (name : String) : Request → Prop
  | record _ d _ _ => d.name = name
  | take n => n = name
  | _ => False

end Request

/-- Successful calls from a tree on, the latest first, and the tree they lead to. Which of the values
for the path they are made on does not matter: it holds nothing but the path. -/
inductive Run (path : String) (u : World) : List (Request × Reply) → World → Prop
  | start : Run path u [] u
  | call {past : List (Request × Reply)} {w v : World} {c : Request} {reply : Reply}
      (h : Run path u past w) (hfits : c.Fits) (hcall : c.perform path w = (.ok reply, v)) :
      Run path u ((c, reply) :: past) v

/-- A review that was recorded under a name, where the name has been neither recorded nor taken
since. -/
def Awaits (past : List (Request × Reply)) (name : String) (review : PendingReview) : Prop :=
  review.decision.name = name ∧ ∃ later reply earlier,
    past = later ++
      (.record review.recordedAt review.decision review.path review.source, reply) :: earlier ∧
    ∀ x ∈ later, ¬ x.1.Settles name

/-- What a call may answer after others: the review under the name, or all reviews in the order of
their names. -/
def Answers (past : List (Request × Reply)) : Request → Reply → Prop
  | .record _ _ _ _, .recorded => True
  | .take name, .review found => ∀ review, found = some review ↔ Awaits past name review
  | .get name, .review found => ∀ review, found = some review ↔ Awaits past name review
  | .list, .reviews all => (∀ review, review ∈ all ↔ Awaits past review.decision.name review) ∧
      all.Pairwise fun r s => Text.bytes r.decision.name < Text.bytes s.decision.name
  | _, _ => False

/-- Two calls that succeed one after the other from a tree on succeed in the other order too, with
the same answers and the same tree after them. -/
def Commute (path : String) (w : World) (a b : Request) : Prop :=
  ∀ replyA replyB v v', a.perform path w = (.ok replyA, v) →
    b.perform path v = (.ok replyB, v') →
    ∃ u, b.perform path w = (.ok replyB, u) ∧ a.perform path u = (.ok replyA, v')

section Awaits
variable {past : List (Request × Reply)} {name : String} {review : PendingReview} {reply : Reply}

theorem not_awaits_nil : ¬ Awaits [] name review := by
  rintro ⟨-, later, reply, earlier, hsplit, -⟩
  simp at hsplit

/-- What a name awaits after one more call. -/
theorem awaits_cons_iff (c : Request) : Awaits ((c, reply) :: past) name review ↔
    (review.decision.name = name ∧
      c = .record review.recordedAt review.decision review.path review.source) ∨
    (¬ c.Settles name ∧ Awaits past name review) := by
  constructor
  · rintro ⟨hname, later, reply', earlier, hsplit, hlater⟩
    cases later with
    | nil => exact .inl ⟨hname, congrArg Prod.fst (List.cons.inj hsplit).1⟩
    | cons first later =>
      obtain ⟨rfl, hrest⟩ := List.cons.inj hsplit
      exact .inr ⟨hlater _ List.mem_cons_self, hname, later, reply', earlier, hrest,
        fun x hx => hlater x (List.mem_cons_of_mem _ hx)⟩
  · rintro (⟨hname, rfl⟩ | ⟨hsettles, hname, later, reply', earlier, rfl, hlater⟩)
    · exact ⟨hname, [], reply, past, rfl, by simp⟩
    · exact ⟨hname, (c, reply) :: later, reply', earlier, rfl,
        List.forall_mem_cons.mpr ⟨hsettles, hlater⟩⟩

end Awaits

/-! What a call does to the reviews. -/

namespace Request
variable (reviews : Dict PendingReview)

def answer : Request → Reply
  | record _ _ _ _ => .recorded
  | take name => .review (reviews.get? name)
  | get name => .review (reviews.get? name)
  | list => .reviews reviews.values

def after : Request → Dict PendingReview
  | record now d root source => reviews.insert d.name ⟨d, root, source, now⟩
  | take name => reviews.erase name
  | get _ => reviews
  | list => reviews

def writes : Request → Bool
  | record _ _ _ _ => true
  | take name => (reviews.get? name).isSome
  | get _ => false
  | list => false

def locks : Request → Bool
  | record _ _ _ _ => true
  | take _ => true
  | get _ => false
  | list => false

variable {reviews} {c : Request}

theorem storable_after (h : Storable reviews) (hfits : c.Fits) : Storable (c.after reviews) := by
  cases c with
  | record now d root source => exact h.insert d.name hfits
  | take name => exact h.erase name
  | get name => exact h
  | list => exact h

theorem not_writes_of_not_locks (h : c.locks = false) : c.writes reviews = false := by
  cases c with
  | record => cases h
  | take => cases h
  | get => rfl
  | list => rfl

theorem after_of_not_writes (h : c.writes reviews = false) : c.after reviews = reviews := by
  cases c with
  | record => cases h
  | take name => exact Dict.erase_of_get? (by simpa [writes] using h)
  | get name => rfl
  | list => rfl

theorem get?_after_iff (c : Request) {name : String} {review : PendingReview} :
    (c.after reviews).get? name = some review ↔
      (review.decision.name = name ∧
        c = record review.recordedAt review.decision review.path review.source) ∨
      (¬ c.Settles name ∧ reviews.get? name = some review) := by
  cases c with
  | record now d root source =>
    rw [after, Dict.get?_insert]
    by_cases hname : name = d.name
    · subst hname
      simp only [if_true, Option.some.injEq, Settles, not_true_eq_false, false_and, or_false,
        record.injEq]
      constructor
      · rintro rfl
        exact ⟨rfl, rfl, rfl, rfl, rfl⟩
      · rintro ⟨-, rfl, rfl, rfl, rfl⟩
        rfl
    · simp only [hname, if_false, Settles, Ne.symm hname, not_false_eq_true, true_and]
      constructor
      · exact .inr
      · rintro (⟨hreview, hsame⟩ | hget)
        · obtain rfl : d = review.decision := (record.inj hsame).2.1
          exact absurd hreview.symm hname
        · exact hget
  | take n =>
    rw [after, Dict.get?_erase]
    by_cases hname : name = n
    · simp [hname, Settles]
    · simp [hname, Settles, Ne.symm hname]
  | get n => simp [after, Settles]
  | list => simp [after, Settles]

/-- What is under a name after a call depends on what was there before it. -/
theorem get?_after_congr {other : Dict PendingReview} (c : Request) {name : String}
    (h : reviews.get? name = other.get? name) :
    (c.after reviews).get? name = (c.after other).get? name := by
  cases c with
  | record now d root source => simp only [after, Dict.get?_insert, h]
  | take n => simp only [after, Dict.get?_erase, h]
  | get n => exact h
  | list => exact h

theorem get?_after_of_ne {n name : String} (hn : c.name? = some n) (hne : name ≠ n) :
    (c.after reviews).get? name = reviews.get? name := by
  cases c with
  | record now d root source =>
    obtain rfl := Option.some.inj hn
    rw [after, Dict.get?_insert, if_neg hne]
  | take m =>
    obtain rfl := Option.some.inj hn
    rw [after, Dict.get?_erase, if_neg hne]
  | get m => rfl
  | list => rfl

end Request

/-! The file between the calls. -/

/-- The reviews at a path: those written there, or none where nothing was written. -/
inductive Kept (path : String) (w : World) : Dict PendingReview → Prop
  | missing (h : Store.Fresh w path) : Kept path w []
  | written {reviews : Dict PendingReview} {r : Route} (hstorable : Storable reviews)
      (h : w.Holds path r (bytes reviews)) : Kept path w reviews

section Kept
variable {path : String} {w x v : World} {reviews : Dict PendingReview} {c : Request} {reply : Reply}

theorem Kept.storable (h : Kept path w reviews) : Storable reviews := by
  cases h with
  | missing => exact ⟨List.Pairwise.nil, by simp [Dict.values]⟩
  | written hstorable => exact hstorable

theorem Kept.load (h : Kept path w reviews) : Pending.load w path = reviews := by
  cases h with
  | missing h => rw [Pending.load, h.readJson?, Option.getD_none]
  | written hstorable h =>
    exact load_of_read? hstorable.sorted hstorable.fits (Store.read?_of_holds h)

theorem Kept.grows (h : Kept path w reviews) (hw : w.Grows x) : Kept path x reviews := by
  cases h with
  | missing h => exact .missing (h.grows hw)
  | written hstorable h => exact .written hstorable (h.evolves hw.evolves (by simp) (by simp))

theorem Kept.own (h : Kept path w reviews) {r : Route} (hr : w.route? path = some r) :
    r.place ∉ r.links := by
  cases h with
  | missing h => exact h.own r hr
  | written _ h =>
    obtain rfl := Option.some.inj (hr.symm.trans h.route)
    exact h.own

theorem Kept.write (h : Kept path w reviews) {new : Dict PendingReview} (hnew : Storable new)
    (hwrite : Store.write path (bytes new) w = (.ok (), v)) : Kept path v new := by
  obtain ⟨r, hr⟩ := Store.route_of_write hwrite
  exact .written hnew (Store.write_ok hwrite hr (h.own hr)).2

/-- How a call begins: it takes the lock, if it needs it. -/
def Request.Enters (path : String) (c : Request) (w x : World) : Prop :=
  (c.locks = true ∧ Store.lock path w = (.ok (), x)) ∨ (c.locks = false ∧ x = w)

/-- How a call ends: it writes the reviews, if they have changed. -/
def Request.Leaves (path : String) (c : Request) (reviews : Dict PendingReview) (x v : World) :
    Prop :=
  (c.writes reviews = true ∧ Store.write path (bytes (c.after reviews)) x = (.ok (), v)) ∨
    (c.writes reviews = false ∧ v = x)

theorem Request.Enters.grows (h : c.Enters path w x) : w.Grows x := by
  rcases h with ⟨-, h⟩ | ⟨-, rfl⟩
  · exact Store.lock_grows h
  · exact .refl _

theorem Kept.load_of_lock (h : Kept path w reviews) (hlock : Store.lock path w = (.ok (), x)) :
    Pending.load x path = reviews :=
  (h.grows (Store.lock_grows hlock)).load

theorem Kept.record_of_lock (h : Kept path w reviews) (hlock : Store.lock path w = (.ok (), x))
    (now : Instant) (d : Decision) (root : String) (source : Option String) :
    Pending.record path now d root source w =
      Store.write path (bytes (reviews.insert d.name ⟨d, root, source, now⟩)) x := by
  rw [Pending.record, Act.bind_of_ok hlock, Act.bind_of_ok (x := get) rfl, h.load_of_lock hlock]
  rfl

theorem Kept.take_of_lock (h : Kept path w reviews) (hlock : Store.lock path w = (.ok (), x))
    {name : String} {review : PendingReview} (hget : reviews.get? name = some review) :
    Pending.take path name w =
      (Store.write path (bytes (reviews.erase name)) >>= fun _ => pure (some review)) x := by
  rw [Pending.take, Act.bind_of_ok hlock, Act.bind_of_ok (x := get) rfl]
  simp only [h.load_of_lock hlock, hget]
  rfl

theorem Kept.take_none (h : Kept path w reviews) (hlock : Store.lock path w = (.ok (), x))
    {name : String} (hget : reviews.get? name = none) :
    Pending.take path name w = (.ok none, x) := by
  rw [Pending.take, Act.bind_of_ok hlock, Act.bind_of_ok (x := get) rfl]
  simp only [h.load_of_lock hlock, hget]
  rfl

theorem Kept.perform_record_iff (h : Kept path w reviews)
    (hlock : Store.lock path w = (.ok (), x)) {now : Instant} {d : Decision} {root : String}
    {source : Option String} :
    (Request.record now d root source).perform path w = (.ok reply, v) ↔
      reply = .recorded ∧ (Request.record now d root source).Leaves path reviews x v := by
  have hrecord := h.record_of_lock hlock now d root source
  constructor
  · intro hrun
    obtain ⟨_, t, hok, hpure⟩ := Act.bind_ok hrun
    obtain ⟨rfl, rfl⟩ := Act.pure_ok hpure
    exact ⟨rfl, .inl ⟨rfl, hrecord.symm.trans hok⟩⟩
  · rintro ⟨rfl, ⟨-, hwrite⟩ | ⟨hno, -⟩⟩
    · exact Act.bind_of_ok (hrecord.trans hwrite)
    · cases hno

theorem Kept.perform_take_iff (h : Kept path w reviews)
    (hlock : Store.lock path w = (.ok (), x)) {name : String} :
    (Request.take name).perform path w = (.ok reply, v) ↔
      reply = .review (reviews.get? name) ∧ (Request.take name).Leaves path reviews x v := by
  cases hget : reviews.get? name with
  | none =>
    have hrun : (Request.take name).perform path w = (.ok (.review none), x) :=
      Act.bind_of_ok (h.take_none hlock hget)
    have hwrites : (Request.take name).writes reviews = false := by rw [Request.writes, hget]; rfl
    constructor
    · intro hok
      obtain ⟨rfl, rfl⟩ := Act.pure_ok (hrun.symm.trans hok)
      exact ⟨rfl, .inr ⟨hwrites, rfl⟩⟩
    · rintro ⟨rfl, ⟨hyes, -⟩ | ⟨-, rfl⟩⟩
      · simp [hwrites] at hyes
      · exact hrun
  | some review =>
    have htake := h.take_of_lock hlock hget
    have hwrites : (Request.take name).writes reviews = true := by rw [Request.writes, hget]; rfl
    constructor
    · intro hrun
      obtain ⟨_, t, hok, hpure⟩ := Act.bind_ok hrun
      obtain ⟨rfl, rfl⟩ := Act.pure_ok hpure
      obtain ⟨_, _, hwrite, hpure⟩ := Act.bind_ok (htake.symm.trans hok)
      obtain ⟨rfl, rfl⟩ := Act.pure_ok hpure
      exact ⟨rfl, .inl ⟨hwrites, hwrite⟩⟩
    · rintro ⟨rfl, ⟨-, hwrite⟩ | ⟨hno, -⟩⟩
      · exact Act.bind_of_ok (htake.trans (Act.bind_of_ok hwrite))
      · simp [hwrites] at hno

theorem Request.perform_iff_of_locks (hlocks : c.locks = true)
    (hlock : c.perform path w = (.ok reply, v) → ∃ x, Store.lock path w = (.ok (), x))
    (hlocked : ∀ {x}, Store.lock path w = (.ok (), x) →
      (c.perform path w = (.ok reply, v) ↔
        reply = c.answer reviews ∧ c.Leaves path reviews x v)) :
    c.perform path w = (.ok reply, v) ↔
      reply = c.answer reviews ∧ ∃ x, c.Enters path w x ∧ c.Leaves path reviews x v := by
  constructor
  · intro hrun
    obtain ⟨x, hx⟩ := hlock hrun
    obtain ⟨hreply, hleaves⟩ := (hlocked hx).mp hrun
    exact ⟨hreply, x, .inl ⟨hlocks, hx⟩, hleaves⟩
  · rintro ⟨hreply, x, ⟨-, hx⟩ | ⟨hno, -⟩, hleaves⟩
    · exact (hlocked hx).mpr ⟨hreply, hleaves⟩
    · simp [hlocks] at hno

theorem Request.perform_iff_of_reads (hlocks : c.locks = false)
    (hrun : c.perform path w = (.ok (c.answer reviews), w)) :
    c.perform path w = (.ok reply, v) ↔
      reply = c.answer reviews ∧ ∃ x, c.Enters path w x ∧ c.Leaves path reviews x v := by
  have hwrites : c.writes reviews = false := not_writes_of_not_locks hlocks
  constructor
  · intro hok
    obtain ⟨rfl, rfl⟩ := Act.pure_ok (hrun.symm.trans hok)
    exact ⟨rfl, _, .inr ⟨hlocks, rfl⟩, .inr ⟨hwrites, rfl⟩⟩
  · rintro ⟨rfl, x, ⟨hyes, -⟩ | ⟨-, rfl⟩, hleaves⟩
    · simp [hlocks] at hyes
    · rcases hleaves with ⟨hyes, -⟩ | ⟨-, rfl⟩
      · simp [hwrites] at hyes
      · exact hrun

/-- What a call does where the reviews are known. -/
theorem Kept.perform_iff (h : Kept path w reviews) :
    c.perform path w = (.ok reply, v) ↔
      reply = c.answer reviews ∧ ∃ x, c.Enters path w x ∧ c.Leaves path reviews x v := by
  cases c with
  | record now d root source =>
    refine Request.perform_iff_of_locks rfl (fun hrun => ?_) fun hlock => h.perform_record_iff hlock
    obtain ⟨_, t, hrecord, -⟩ := Act.bind_ok hrun
    obtain ⟨_, x, hlock, -⟩ := Act.bind_ok hrecord
    exact ⟨x, hlock⟩
  | take name =>
    refine Request.perform_iff_of_locks rfl (fun hrun => ?_) fun hlock => h.perform_take_iff hlock
    obtain ⟨_, t, htake, -⟩ := Act.bind_ok hrun
    obtain ⟨_, x, hlock, -⟩ := Act.bind_ok htake
    exact ⟨x, hlock⟩
  | get name =>
    refine Request.perform_iff_of_reads rfl ?_
    simp only [Request.perform, Pending.get?, h.load, Request.answer]
  | list =>
    refine Request.perform_iff_of_reads rfl ?_
    simp only [Request.perform, Pending.list, h.load, Request.answer]

/-- A call that takes no lock only reads. -/
theorem Kept.read (h : Kept path w reviews) (hlocks : c.locks = false) :
    c.perform path w = (.ok (c.answer reviews), w) :=
  h.perform_iff.mpr ⟨rfl, w, .inr ⟨hlocks, rfl⟩, .inr ⟨Request.not_writes_of_not_locks hlocks, rfl⟩⟩

theorem Kept.step (h : Kept path w reviews) (hfits : c.Fits)
    (hcall : c.perform path w = (.ok reply, v)) : Kept path v (c.after reviews) := by
  obtain ⟨-, x, henters, hleaves⟩ := h.perform_iff.mp hcall
  have hx := h.grows henters.grows
  rcases hleaves with ⟨-, hwrite⟩ | ⟨hno, rfl⟩
  · exact hx.write (Request.storable_after h.storable hfits) hwrite
  · rwa [Request.after_of_not_writes hno]

end Kept

section Order
variable {path : String} {w x v : World} {reviews : Dict PendingReview} {c : Request}

/-- A file that is not on the way to its own lock. -/
def Apart (path : String) (w : World) : Prop :=
  ∀ r, w.route? path = some r → r.place ∉ w.onWay (Store.lockPath path)

theorem Apart.grows (h : Apart path w) (hw : w.Grows x) : Apart path x := by
  have hlinks : ∀ q ∈ w.onWay (Store.lockPath path), ∀ t,
      x.at? q = some (.link t) ↔ w.at? q = some (.link t) :=
    fun q _ t => ⟨hw.link, hw.keeps q _⟩
  intro r hr
  rw [(World.way_of_links hw.cwd hlinks).2.1]
  exact h r ((Store.route?_of_grows hw path).symm.trans hr)

/-- A file that has been written elsewhere than on the way to its lock is still not on it. -/
theorem Apart.evolves (h : Apart path w) {r : Route} (hr : w.route? path = some r)
    (hw : w.Evolves [r.place] v) (hr' : v.route? path = some r) : Apart path v := by
  have haway : ∀ q ∈ w.onWay (Store.lockPath path), q ∉ [r.place] := by
    intro q hq hmem
    rw [List.mem_singleton.mp hmem] at hq
    exact h r hr hq
  have hlinks : ∀ q ∈ w.onWay (Store.lockPath path), ∀ t,
      v.at? q = some (.link t) ↔ w.at? q = some (.link t) :=
    fun q hq t => ⟨hw.link q t, hw.keeps q _ (.inl (haway q hq))⟩
  intro s hs
  obtain rfl := Option.some.inj (hr'.symm.trans hs)
  rw [(World.way_of_links hw.cwd hlinks).2.1]
  exact h r hr

theorem Kept.apart (h : Kept path w reviews) (hapart : Apart path w) {reply : Reply}
    (hcall : c.perform path w = (.ok reply, v)) : Apart path v := by
  obtain ⟨-, x, henters, hleaves⟩ := h.perform_iff.mp hcall
  have hx := hapart.grows henters.grows
  rcases hleaves with ⟨-, hwrite⟩ | ⟨-, rfl⟩
  · obtain ⟨r, hr⟩ := Store.route_of_write hwrite
    obtain ⟨hevolves, hholds⟩ := Store.write_ok hwrite hr ((h.grows henters.grows).own hr)
    exact hx.evolves hr hevolves hholds.route
  · exact hx

/-- After a call that has taken the lock, it is taken without a trace. -/
theorem Kept.lock_of_leaves (h : Kept path w reviews) (hapart : Apart path w)
    (hlock : Store.lock path w = (.ok (), x)) (hleaves : c.Leaves path reviews x v) :
    Store.lock path v = (.ok (), v) := by
  rcases hleaves with ⟨-, hwrite⟩ | ⟨-, rfl⟩
  · obtain ⟨r, hr⟩ := Store.route_of_write hwrite
    rw [Store.route?_of_grows (Store.lock_grows hlock)] at hr
    exact (Store.standing_of_write hlock hwrite hr (h.own hr) (hapart r hr)).lock_eq
  · exact Store.lock_again hlock

/-! Calls on two names. -/

section Swap
variable {a b : Request} {n m : String} (ha : a.name? = some n) (hb : b.name? = some m)
  (hne : n ≠ m)
include ha hb hne

/-- A call does not see what another did under another name. -/
theorem unseen (reviews : Dict PendingReview) :
    b.answer (a.after reviews) = b.answer reviews ∧
      b.writes (a.after reviews) = b.writes reviews := by
  have hget : (a.after reviews).get? m = reviews.get? m := Request.get?_after_of_ne ha hne.symm
  cases b with
  | record => exact ⟨rfl, rfl⟩
  | take name =>
    obtain rfl := Option.some.inj hb
    simp only [Request.answer, Request.writes, hget, and_self]
  | get name =>
    obtain rfl := Option.some.inj hb
    simp only [Request.answer, Request.writes, hget, and_self]
  | list => cases hb

theorem after_comm (hreviews : Storable reviews) (hfitsA : a.Fits) (hfitsB : b.Fits) :
    b.after (a.after reviews) = a.after (b.after reviews) := by
  have hsortedA := Request.storable_after hreviews hfitsA
  have hsortedB := Request.storable_after hreviews hfitsB
  refine (Request.storable_after hsortedA hfitsB).sorted.ext
    (Request.storable_after hsortedB hfitsA).sorted ?_
  intro key
  by_cases hkey : key = n
  · have hother : key ≠ m := by rw [hkey]; exact hne
    rw [Request.get?_after_of_ne hb hother]
    exact Request.get?_after_congr a (Request.get?_after_of_ne hb hother).symm
  · rw [Request.get?_after_of_ne ha hkey]
    exact Request.get?_after_congr b (Request.get?_after_of_ne ha hkey)

/-- What two calls write under the lock, they write in the other order too. -/
theorem Kept.swap_leaves (h : Kept path x reviews) (hfitsA : a.Fits) (hfitsB : b.Fits)
    (hleavesA : a.Leaves path reviews x v) {v' : World}
    (hleavesB : b.Leaves path (a.after reviews) v v') :
    ∃ u, b.Leaves path reviews x u ∧ a.Leaves path (b.after reviews) u v' := by
  obtain ⟨-, hwritesB⟩ := unseen ha hb hne reviews
  obtain ⟨-, hwritesA⟩ := unseen hb ha hne.symm reviews
  unfold Request.Leaves at hleavesA hleavesB ⊢
  rw [hwritesB] at hleavesB
  rw [hwritesA]
  rcases hleavesA with ⟨hA, hwriteA⟩ | ⟨hA, rfl⟩
  · rcases hleavesB with ⟨hB, hwriteB⟩ | ⟨hB, rfl⟩
    · -- Both write at one place, and what the first of them wrote there is gone.
      have hcomm := after_comm ha hb hne h.storable hfitsA hfitsB
      obtain ⟨r, hr⟩ := Store.route_of_write hwriteA
      have hown := h.own hr
      have hfirst := (Store.write_other hwriteA hr hown (bytes (b.after reviews))).1
      have hsecond := (Store.write_other hwriteA hr hown (bytes (b.after (a.after reviews)))).2
      have hlast := (Store.write_other hfirst hr hown (bytes (a.after (b.after reviews)))).2
      rw [hwriteB, hcomm] at hsecond
      rw [World.put_put, ← hsecond] at hlast
      exact ⟨_, .inl ⟨hB, hfirst⟩, .inl ⟨hA, hlast⟩⟩
    · rw [Request.after_of_not_writes hB]
      exact ⟨x, .inr ⟨hB, rfl⟩, .inl ⟨hA, hwriteA⟩⟩
  · rw [Request.after_of_not_writes hA] at hleavesB
    exact ⟨v', hleavesB, .inr ⟨hA, rfl⟩⟩

/-- Calls on two names may change places. -/
theorem Kept.swap (h : Kept path w reviews) (hapart : Apart path w) (hfitsA : a.Fits)
    (hfitsB : b.Fits) : Commute path w a b := by
  intro replyA replyB v v' hcallA hcallB
  have hanswerA := (unseen hb ha hne.symm reviews).1
  have hanswerB := (unseen ha hb hne reviews).1
  cases hlocksA : a.locks with
  | false =>
    rw [h.read hlocksA] at hcallA
    obtain ⟨hreplyA, rfl⟩ := Prod.mk.inj hcallA
    refine ⟨v', hcallB, ?_⟩
    rw [(h.step hfitsB hcallB).read hlocksA, hanswerA, hreplyA]
  | true =>
    have hv := h.step hfitsA hcallA
    cases hlocksB : b.locks with
    | false =>
      rw [hv.read hlocksB, hanswerB] at hcallB
      obtain ⟨hreplyB, rfl⟩ := Prod.mk.inj hcallB
      refine ⟨w, ?_, hcallA⟩
      rw [h.read hlocksB, hreplyB]
    | true =>
      obtain ⟨rfl, x, ⟨-, hlock⟩ | ⟨hno, -⟩, hleavesA⟩ := h.perform_iff.mp hcallA
      · obtain ⟨rfl, y, ⟨-, hlockB⟩ | ⟨hno, -⟩, hleavesB⟩ := hv.perform_iff.mp hcallB
        · rw [h.lock_of_leaves hapart hlock hleavesA] at hlockB
          obtain rfl : v = y := (Prod.mk.inj hlockB).2
          obtain ⟨u, hB, hA⟩ := (h.grows (Store.lock_grows hlock)).swap_leaves ha hb hne hfitsA
            hfitsB hleavesA hleavesB
          have hfirst : b.perform path w = (.ok (b.answer (a.after reviews)), u) :=
            h.perform_iff.mpr ⟨hanswerB, x, .inl ⟨hlocksB, hlock⟩, hB⟩
          exact ⟨u, hfirst, (h.step hfitsB hfirst).perform_iff.mpr
            ⟨hanswerA.symm, u, .inl ⟨hlocksA, h.lock_of_leaves hapart hlock hB⟩, hA⟩⟩
        · rw [hno] at hlocksB
          cases hlocksB
      · rw [hno] at hlocksA
        cases hlocksA

end Swap

end Order

/-! Calls that follow one another. -/

section Runs
variable {path : String} {u w : World} {past : List (Request × Reply)}
  {reviews : Dict PendingReview}

def Remembers (past : List (Request × Reply)) (reviews : Dict PendingReview) : Prop :=
  ∀ name review, reviews.get? name = some review ↔ Awaits past name review

theorem Remembers.step (h : Remembers past reviews) (c : Request) (reply : Reply) :
    Remembers ((c, reply) :: past) (c.after reviews) := by
  intro name review
  rw [Request.get?_after_iff, awaits_cons_iff, h name review]

theorem Remembers.answers (h : Remembers past reviews) (hsorted : reviews.Sorted) (c : Request) :
    Answers past c (c.answer reviews) := by
  have hname : ∀ x ∈ reviews, x.2.decision.name = x.1 :=
    fun x hx => ((h x.1 x.2).mp (hsorted.mem_iff.mp hx)).1
  cases c with
  | record => trivial
  | take name => exact h name
  | get name => exact h name
  | list =>
    constructor
    · intro review
      constructor
      · intro hmem
        obtain ⟨x, hx, rfl⟩ := List.mem_map.mp hmem
        rw [hname x hx]
        exact (h x.1 x.2).mp (hsorted.mem_iff.mp hx)
      · intro hawaits
        exact List.mem_map.mpr ⟨_, hsorted.mem_iff.mpr ((h _ review).mpr hawaits), rfl⟩
    · rw [Dict.values, List.pairwise_map]
      have hkeys : reviews.Pairwise fun x y => x.1 < y.1 := List.pairwise_map.mp hsorted
      refine hkeys.imp_of_mem ?_
      intro x y hx hy hlt
      rw [hname x hx, hname y hy]
      exact Text.lt_iff_bytes_lt.mp hlt

theorem Run.invariant (h : Run path u past w) (hfresh : Store.Fresh u path) :
    ∃ reviews, Kept path w reviews ∧ Remembers past reviews ∧ (Apart path u → Apart path w) ∧
      ∀ later c reply earlier, past = later ++ (c, reply) :: earlier → Answers earlier c reply := by
  induction h with
  | start =>
    refine ⟨[], .missing hfresh, ?_, id, by simp⟩
    intro name review
    simp [Dict.get?, not_awaits_nil]
  | @call past w v c reply h hfits hcall ih =>
    obtain ⟨reviews, hkept, hremembers, hapart, hanswers⟩ := ih
    refine ⟨c.after reviews, hkept.step hfits hcall, hremembers.step c reply,
      fun hu => hkept.apart (hapart hu) hcall, ?_⟩
    intro later c' reply' earlier hsplit
    cases later with
    | nil =>
      obtain ⟨hcalls, rfl⟩ := List.cons.inj hsplit
      obtain ⟨rfl, rfl⟩ := Prod.mk.inj hcalls
      obtain ⟨rfl, -⟩ := hkept.perform_iff.mp hcall
      exact hremembers.answers hkept.storable.sorted c
    | cons _ later => exact hanswers later c' reply' earlier (List.cons.inj hsplit).2

/-- From a missing file on, the reviews are a map: every call answers what was recorded last under
its name and not taken since, or all such reviews in the order of the bytes of their names; a review
that is taken is gone, and no other; and calls on two names may change places, where the file is not
on the way to its own lock. -/
theorem reviews_form_map (hfresh : Store.Fresh u path) (h : Run path u past w) :
    (∀ later c reply earlier, past = later ++ (c, reply) :: earlier → Answers earlier c reply) ∧
    (∀ name review, get? w path name = some review ↔ Awaits past name review) ∧
    (∀ name found v, take path name w = (.ok found, v) → found = get? w path name ∧
      get? v path name = none ∧ ∀ other, other ≠ name → get? v path other = get? w path other) ∧
    (Apart path u → ∀ (a b : Request) n m, a.name? = some n → b.name? = some m → n ≠ m →
      a.Fits → b.Fits → Commute path w a b) := by
  obtain ⟨reviews, hkept, hremembers, hapart, hanswers⟩ := h.invariant hfresh
  have hget : ∀ name, get? w path name = reviews.get? name := by
    intro name
    rw [get?, hkept.load]
  refine ⟨hanswers, ?_, ?_, ?_⟩
  · intro name review
    rw [hget]
    exact hremembers name review
  · intro name found v htake
    have hcall : Request.perform path (.take name) w = (.ok (.review found), v) :=
      Act.bind_of_ok htake
    have hfits : Request.Fits (.take name) := trivial
    have hload := (hkept.step hfits hcall).load
    obtain ⟨hreply, -⟩ := hkept.perform_iff.mp hcall
    refine ⟨?_, ?_, ?_⟩
    · rw [hget]
      exact Reply.review.inj hreply
    · rw [get?, hload, Request.after, Dict.get?_erase, if_pos rfl]
    · intro other hne
      rw [get?, hload, Request.after, Dict.get?_erase, if_neg hne, hget]
  · intro hu a b n m ha hb hne hfitsA hfitsB
    exact hkept.swap ha hb hne (hapart hu) hfitsA hfitsB

end Runs

/-! A file in the current directory. -/

def undecided (name : String) : Decision where
  name
  version := none
  verdict := .review
  score := 60
  risk := .medium
  findings := []
  flowFindings := []
  requiresApproval := true
  hash := "h"
  previouslyApproved := false
  reason := "r"
  diff := none

theorem undecided_fits (name : String) : (undecided name).Fits :=
  ⟨by simp [undecided], by simp [undecided], by simp [undecided]⟩

def asked (name : String) : PendingReview := ⟨undecided name, "q", none, Instant.newYear⟩

def recordOf (name : String) : Request := .record Instant.newYear (undecided name) "q" none

def desk : World := ⟨[], []⟩

theorem desk_store : LocalPath "pending.json" "pending.json" := by decide

theorem desk_lock : LocalPath (Store.lockPath "pending.json") "pending.json.lock" := by decide

theorem desk_fresh : Store.Fresh desk "pending.json" := by
  have hfree : desk.at? (desk.cwd ++ ["pending.json"]) = none := by decide
  constructor
  · intro r hr
    rw [desk_store.route] at hr
    obtain rfl := Option.some.inj hr
    simp
  · intro g hg
    rw [desk_store.goal desk (by rw [hfree]; simp)] at hg
    obtain rfl := Option.some.inj hg
    exact .inl hfree

theorem desk_apart : Apart "pending.json" desk := by
  have hfree : desk.at? (desk.cwd ++ ["pending.json.lock"]) = none := by decide
  intro r hr
  rw [desk_store.route] at hr
  obtain rfl := Option.some.inj hr
  rw [desk_lock.onWay (by rw [hfree]; simp)]
  decide

def deskNames : List String := ["pending.json", "pending.json.lock"]

/-- Where only files stand under their names, every call succeeds. -/
theorem Kept.call_desk {w : World} {reviews : Dict PendingReview}
    (h : Kept "pending.json" w reviews) (hopen : ∀ name ∈ deskNames, Open w name) (c : Request) :
    ∃ v, c.perform "pending.json" w = (.ok (c.answer reviews), v) ∧ w.KeepsTo deskNames v := by
  obtain ⟨x, henters, hx⟩ : ∃ x, c.Enters "pending.json" w x ∧ w.KeepsTo deskNames x := by
    cases hlocks : c.locks with
    | true =>
      obtain ⟨x, hlock, hkeeps⟩ := Store.lock_local desk_lock
        (show "pending.json.lock" ∈ deskNames by decide) (by decide) (hopen _ (by decide))
      exact ⟨x, .inl ⟨hlocks, hlock⟩, hkeeps⟩
    | false => exact ⟨w, .inr ⟨hlocks, rfl⟩, .refl _ w⟩
  obtain ⟨v, hleaves, hv⟩ : ∃ v, c.Leaves "pending.json" reviews x v ∧ x.KeepsTo deskNames v := by
    cases hwrites : c.writes reviews with
    | true =>
      have hfile : Open x "pending.json" := hx.free _ (hopen _ (by decide))
      exact ⟨_, .inl ⟨hwrites, desk_store.write x hfile _⟩, .put (by decide) x _⟩
    | false => exact ⟨x, .inr ⟨hwrites, rfl⟩, .refl _ x⟩
  exact ⟨v, h.perform_iff.mpr ⟨rfl, x, henters, hleaves⟩, hx.trans hv⟩

/-- Two reviews can be recorded one after the other. -/
theorem desk_run (first second : String) : ∃ w,
    Run "pending.json" desk [(recordOf second, .recorded), (recordOf first, .recorded)] w := by
  have hkept := Kept.missing desk_fresh
  have hfits : ∀ name, (recordOf name).Fits := undecided_fits
  have hopen : ∀ name ∈ deskNames, Open desk name := fun _ _ => .inl rfl
  obtain ⟨w, hfirst, hw⟩ := hkept.call_desk hopen (recordOf first)
  obtain ⟨v, hsecond, -⟩ := (hkept.step (hfits first) hfirst).call_desk
    (fun name hname => hw.free name (hopen name hname)) (recordOf second)
  exact ⟨v, (Run.start.call (hfits first) hfirst).call (hfits second) hsecond⟩

/-- Two reviews are recorded and found under their names, and each of them can be taken first. -/
theorem reviews_form_map_desk : ∃ w, Store.Fresh desk "pending.json" ∧ Apart "pending.json" desk ∧
    Run "pending.json" desk [(recordOf "a", .recorded), (recordOf "b", .recorded)] w ∧
    get? w "pending.json" "b" = some (asked "b") ∧ get? w "pending.json" "c" = none ∧
    Commute "pending.json" w (.take "a") (.take "b") := by
  obtain ⟨w, hrun⟩ := desk_run "b" "a"
  obtain ⟨-, hget, -, hcommute⟩ := reviews_form_map desk_fresh hrun
  refine ⟨w, desk_fresh, desk_apart, hrun, ?_, ?_, ?_⟩
  · rw [hget]
    exact ⟨rfl, [(recordOf "a", .recorded)], .recorded, [], rfl,
      by simp [recordOf, undecided, Request.Settles]⟩
  · apply Option.eq_none_iff_forall_not_mem.mpr
    intro review hreview
    have hawaits := (hget "c" review).mp hreview
    rw [awaits_cons_iff, awaits_cons_iff] at hawaits
    rcases hawaits with ⟨hname, hcall⟩ | ⟨-, ⟨hname, hcall⟩ | ⟨-, hnone⟩⟩
    · rw [← (Request.record.inj hcall).2.1] at hname
      exact absurd hname (by decide)
    · rw [← (Request.record.inj hcall).2.1] at hname
      exact absurd hname (by decide)
    · exact not_awaits_nil hnone
  · exact hcommute desk_apart (.take "a") (.take "b") "a" "b" rfl rfl (by decide) trivial trivial

/-! Files on their own way. -/

theorem bridge_record (name : String) :
    ∃ v, (recordOf name).perform "d/../p/../p" Store.bridge = (.ok .recorded, v) ∧
      get? v "d/../p/../p" name = none := by
  have hrecord : ∃ new, record "d/../p/../p" Instant.newYear (undecided name) "q" none Store.bridge =
      (.ok (), Store.crossed.put ["p"] (.file new)) := by
    rw [record, Act.bind_of_ok Store.bridge_lock, Act.bind_of_ok (x := get) rfl]
    exact ⟨_, (Store.crossed_write _).1⟩
  obtain ⟨new, hrecord⟩ := hrecord
  refine ⟨_, Act.bind_of_ok hrecord, ?_⟩
  rw [get?, load, Store.readJson?, (Store.crossed_write new).2]
  rfl

/-- A file in the place of a link to a directory, with its lock in that directory. -/
def hinge : World :=
  ⟨[(["s"], .dir), (["pending.json"], .link "s"), (["pending.json.lock"], .link "pending.json/l")],
    []⟩

def hinged : World := hinge.put ["s", "l"] (.file .empty)

theorem hinge_fresh : Store.Fresh hinge "pending.json" := by
  constructor
  · intro r hr
    rw [desk_store.route] at hr
    obtain rfl := Option.some.inj hr
    simp
  · intro g hg
    have hspot : hinge.resolve true "pending.json" = .ok (.taken ["s"] .dir) := by
      rw [World.resolve_eq_reaches]
      decide +kernel
    obtain ⟨trail, hleads⟩ := World.leads_of_resolve hspot
    obtain rfl := Option.some.inj ((World.course_of_leads hleads).symm.trans hg)
    have hdir : hinge.at? ["s"] = some .dir := by decide
    exact .inr (.inl hdir)

theorem hinge_lock_eq (w : World) : Store.lock "pending.json" w =
    Act.change "pending.json.lock" (·.touch "pending.json.lock") w := by
  have hpath : Store.lockPath "pending.json" = "pending.json.lock" := by decide
  have hparent : Path.parent "pending.json.lock" = some "" := by decide
  unfold Store.lock
  simp only [hpath, hparent]
  exact Act.bind_of_ok (Store.makeDirs_standing (.inl rfl))

theorem hinge_lock : Store.lock "pending.json" hinge = (.ok (), hinged) := by
  have hspot : hinge.reaches true "pending.json.lock" = .ok (.free ["s", "l"]) := by decide +kernel
  rw [hinge_lock_eq]
  simp only [Act.change, World.touch, World.resolve_eq_reaches, hspot]
  rfl

theorem hinge_lock_closed (new : ByteArray) (v : World) :
    Store.lock "pending.json" (hinged.put ["pending.json"] (.file new)) ≠ (.ok (), v) := by
  have hspot : (hinged.put ["pending.json"] (.file new)).reaches true "pending.json.lock" =
    .error .notDirectory := rfl
  intro hlock
  rw [hinge_lock_eq] at hlock
  simp only [Act.change, World.touch, World.resolve_eq_reaches, hspot] at hlock
  cases hlock

theorem hinge_write (new : ByteArray) : Store.write "pending.json" new hinged =
    (.ok (), hinged.put ["pending.json"] (.file new)) := by
  have hspot : hinged.resolve false "pending.json" = .ok (.taken ["pending.json"] (.link "s")) := by
    rw [World.resolve_eq_reaches]
    decide +kernel
  exact Store.write_of_resolve (by decide) hspot (by simp) new

/-- A call on another name succeeds before a review is recorded, but not after it. -/
theorem hinge_not_commute : ¬ Commute "pending.json" hinge (.take "y") (recordOf "x") := by
  intro hcommute
  have hkept := Kept.missing hinge_fresh
  have hlocked := hkept.grows (Store.lock_grows hinge_lock)
  have htake := (hkept.perform_iff (c := .take "y")).mpr
    ⟨rfl, hinged, .inl ⟨rfl, hinge_lock⟩, .inr ⟨rfl, rfl⟩⟩
  have hrecord := (hlocked.perform_iff (c := recordOf "x")).mpr
    ⟨rfl, hinged, .inl ⟨rfl, Store.lock_again hinge_lock⟩, .inl ⟨rfl, hinge_write _⟩⟩
  obtain ⟨u, hfirst, hsecond⟩ := hcommute _ _ _ _ htake hrecord
  obtain ⟨-, x, ⟨-, hlock⟩ | ⟨hno, -⟩, ⟨-, hwrite⟩ | ⟨hno, -⟩⟩ := hkept.perform_iff.mp hfirst
  · rw [hinge_lock] at hlock
    obtain rfl : hinged = x := (Prod.mk.inj hlock).2
    rw [hinge_write] at hwrite
    obtain rfl := (Prod.mk.inj hwrite).2
    obtain ⟨_, _, htaken, -⟩ := Act.bind_ok hsecond
    obtain ⟨_, v, hagain, -⟩ := Act.bind_ok htaken
    exact hinge_lock_closed _ v hagain
  all_goals cases hno

/-- A review that is recorded where the path leads over a link in its own place is not found. And
where the way to the lock leads over the file, calls on two names may not change places. -/
theorem review_lost_in_place_of_link :
    (Store.bridge.pathExists "d/../p/../p" = false ∧
      ∃ v, (recordOf "x").perform "d/../p/../p" Store.bridge = (.ok .recorded, v) ∧
        get? v "d/../p/../p" "x" = none) ∧
    Store.Fresh hinge "pending.json" ∧ ¬ Commute "pending.json" hinge (.take "y") (recordOf "x") := by
  have hmissing : Store.bridge.pathExists "d/../p/../p" = false := by
    rw [World.pathExists, World.find, World.resolve_eq_reaches]
    decide
  exact ⟨⟨hmissing, bridge_record "x"⟩, hinge_fresh, hinge_not_commute⟩

end Pending
end SkillAudit
