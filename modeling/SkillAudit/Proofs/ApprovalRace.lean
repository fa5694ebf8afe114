import Mathlib
import SkillAudit.Proofs.LedgerMirror
import SkillAudit.Proofs.ReviewMap

/-!
Approving while others record. An approval reads the review of a name, enters its decision in the
ledger and takes the name, each on its own; so it takes the review that was recorded last, whichever
one it has read.
-/
namespace SkillAudit.Pending

/-! What calls make of the reviews. -/

section Continues
variable {early late past : List (Request × Reply)} {reviews later last : Dict PendingReview}
  {name : String} {review : PendingReview}

/-- What a name awaits after some calls and others after them. -/
theorem awaits_append_iff : Awaits (late ++ early) name review ↔
    Awaits late name review ∨ (∀ x ∈ late, ¬ x.1.Settles name) ∧ Awaits early name review := by
  induction late with
  | nil => simp [not_awaits_nil]
  | cons x late ih =>
    rw [List.cons_append, awaits_cons_iff, awaits_cons_iff, ih, List.forall_mem_cons]
    tauto

/-- Calls, the latest first, that lead from some reviews to others: under each name is what was
recorded last, or what was there if no call has decided about the name. -/
def Continues (past : List (Request × Reply)) (reviews later : Dict PendingReview) : Prop :=
  ∀ name review, later.get? name = some review ↔
    Awaits past name review ∨
      (∀ x ∈ past, ¬ x.1.Settles name) ∧ reviews.get? name = some review

theorem Continues.refl (reviews : Dict PendingReview) : Continues [] reviews reviews := by
  intro name review
  simp [not_awaits_nil]

theorem Continues.call (h : Continues past reviews later) (c : Request) (reply : Reply) :
    Continues ((c, reply) :: past) reviews (c.after later) := by
  intro name review
  rw [Request.get?_after_iff, awaits_cons_iff, h name review, List.forall_mem_cons]
  tauto

theorem Continues.trans (h : Continues early reviews later) (h' : Continues late later last) :
    Continues (late ++ early) reviews last := by
  intro name review
  rw [h' name review, h name review, awaits_append_iff, List.forall_mem_append]
  tauto

end Continues

/-! The file of reviews beside the ledger. -/

def ledgerFiles (paths : Paths) : List String := paths.ledger :: paths.ledgerMarkdown.toList

/-- The ledger and its table are no links, and not where the reviews are reached. -/
def Separate (paths : Paths) (w : World) : Prop :=
  ∀ path ∈ ledgerFiles paths, ∀ r, w.route? path = some r →
    (∀ t, w.at? r.place ≠ some (.link t)) ∧ r.place ∉ w.onWay paths.pending

/-- Reviews that have been written, to a file that the ledger leaves alone. -/
structure Filed (paths : Paths) (reviews : Dict PendingReview) (w : World) : Prop where
  separate : Separate paths w
  storable : Storable reviews
  held : ∃ r, w.Holds paths.pending r (bytes reviews)

section Filed
variable {paths : Paths} {reviews : Dict PendingReview} {w v : World} {written : List Place}

/-- Files that are put where no link is do not turn the ways that keep the files apart. -/
theorem Separate.evolves (h : Separate paths w) (hw : w.Evolves written v)
    (hplain : ∀ q ∈ written, ∀ t, w.at? q ≠ some (.link t)) : Separate paths v := by
  have hlinks : ∀ q t, v.at? q = some (.link t) ↔ w.at? q = some (.link t) := fun q t =>
    ⟨hw.link q t, fun hat => hw.keeps q _ (.inl fun hq => hplain q hq t hat) hat⟩
  have hway : ∀ path, _ := fun path =>
    @World.way_of_links w v path hw.cwd fun q _ => hlinks q
  intro path hpath r hr
  rw [(hway path).2.2] at hr
  obtain ⟨hlink, haway⟩ := h path hpath r hr
  rw [(hway paths.pending).2.1]
  exact ⟨fun t ht => hlink t ((hlinks _ t).mp ht), haway⟩

theorem Filed.of_get? (hseparate : Separate paths w) (hkept : Kept paths.pending w reviews)
    {name : String} {review : PendingReview} (hget : reviews.get? name = some review) :
    Filed paths reviews w := by
  cases hkept with
  | missing => cases hget
  | written hstorable hheld => exact ⟨hseparate, hstorable, _, hheld⟩

theorem Filed.kept (h : Filed paths reviews w) : Kept paths.pending w reviews := by
  obtain ⟨r, hheld⟩ := h.held
  exact .written h.storable hheld

theorem Filed.evolves (h : Filed paths reviews w) (hw : w.Evolves written v)
    (hplain : ∀ q ∈ written, ∀ t, w.at? q ≠ some (.link t))
    (haway : ∀ q ∈ written, q ∉ w.onWay paths.pending) : Filed paths reviews v := by
  obtain ⟨r, hheld⟩ := h.held
  refine ⟨h.separate.evolves hw hplain, h.storable, r,
    hheld.keeps_passed hw.cwd fun q hq n hat => hw.keeps q n (.inl ?_) hat⟩
  intro hmem
  exact haway q hmem hq

theorem Filed.grows (h : Filed paths reviews w) (hw : w.Grows v) : Filed paths reviews v :=
  h.evolves hw.evolves (by simp) (by simp)

theorem Filed.write (h : Filed paths reviews w) {new : Dict PendingReview} (hnew : Storable new)
    (hwrite : Store.write paths.pending (bytes new) w = (.ok (), v)) : Filed paths new v := by
  obtain ⟨r, hheld⟩ := h.held
  obtain ⟨hevolves, hheld'⟩ := Store.write_ok hwrite hheld.route hheld.own
  refine ⟨h.separate.evolves hevolves ?_, hnew, r, hheld'⟩
  intro q hq t
  rw [List.mem_singleton.mp hq, hheld.at?]
  simp

theorem Filed.step (h : Filed paths reviews w) {c : Request} {reply : Reply} (hfits : c.Fits)
    (hcall : c.perform paths.pending w = (.ok reply, v)) :
    reply = c.answer reviews ∧ Filed paths (c.after reviews) v := by
  obtain ⟨hreply, x, henters, hleaves⟩ := h.kept.perform_iff.mp hcall
  refine ⟨hreply, ?_⟩
  have hx := h.grows henters.grows
  rcases hleaves with ⟨-, hwrite⟩ | ⟨hno, rfl⟩
  · exact hx.write (Request.storable_after h.storable hfits) hwrite
  · rwa [Request.after_of_not_writes hno]

theorem Filed.run (h : Filed paths reviews w) {past : List (Request × Reply)}
    (hrun : Run paths.pending w past v) :
    ∃ later, Filed paths later v ∧ Continues past reviews later := by
  induction hrun with
  | start => exact ⟨reviews, h, .refl reviews⟩
  | @call past x v c reply _ hfits hcall ih =>
    obtain ⟨later, hlater, hcontinues⟩ := ih
    exact ⟨c.after later, (hlater.step hfits hcall).2, hcontinues.call c reply⟩

theorem Filed.take (h : Filed paths reviews w) {name : String} {taken : Option PendingReview}
    (htake : Pending.take paths.pending name w = (.ok taken, v)) :
    taken = reviews.get? name ∧ Filed paths (reviews.erase name) v := by
  have hcall : Request.perform paths.pending (.take name) w = (.ok (.review taken), v) :=
    Act.bind_of_ok htake
  have hfits : Request.Fits (.take name) := trivial
  obtain ⟨hreply, hfiled⟩ := h.step hfits hcall
  exact ⟨Reply.review.inj hreply, hfiled⟩

theorem Filed.ledgerFile (h : Filed paths reviews w) {path : String} {new : ByteArray}
    (hpath : path ∈ ledgerFiles paths) (hwrite : Store.write path new w = (.ok (), v)) :
    Filed paths reviews v := by
  obtain ⟨r, hr⟩ := Store.route_of_write hwrite
  obtain ⟨hplain, haway⟩ := h.separate path hpath r hr
  exact h.evolves (Store.write_evolves hwrite hr) (by simpa using hplain) (by simpa using haway)

/-- An entry is added to the ledger, and the reviews stay. -/
theorem Filed.add (h : Filed paths reviews w) {l l' : Ledger} {now : Instant} {e a : LedgerEntry}
    (hledger : l.path = paths.ledger) (htable : l.tablePath = paths.ledgerMarkdown)
    (hadd : Ledger.add now e (l, w) = (.ok a, (l', v))) :
    a = Ledger.stamped now e ∧ l'.entries.getLast? = some a ∧ Filed paths reviews v := by
  obtain ⟨rfl, x, hlock, hwrite⟩ := Ledger.add_ok_iff.mp hadd
  obtain ⟨-, y, hstore, hrest⟩ := Ledger.writeFiles_ok_iff.mp hwrite
  have hlast : (l.extended x (Ledger.stamped now e)).entries.getLast? =
      some (Ledger.stamped now e) := by
    simp [Ledger.extended, Ledger.entries]
  have hx := h.grows (Store.lock_grows hlock)
  have hy := hx.ledgerFile (by simp [ledgerFiles, Ledger.extended, hledger]) hstore
  have htable' : (l.extended x (Ledger.stamped now e)).tablePath = paths.ledgerMarkdown := htable
  rw [htable'] at hrest
  cases hmarkdown : paths.ledgerMarkdown with
  | none =>
    simp only [hmarkdown, Prod.mk.injEq] at hrest
    obtain ⟨rfl, rfl⟩ := hrest
    exact ⟨rfl, hlast, hy⟩
  | some path =>
    simp only [hmarkdown] at hrest
    obtain ⟨z, hshown, hs⟩ := hrest
    obtain ⟨rfl, rfl⟩ := Prod.mk.inj hs
    exact ⟨rfl, hlast, hy.ledgerFile (by simp [ledgerFiles, hmarkdown]) hshown⟩

end Filed

/-! An approval among other calls. -/

/-- What an approval reads, enters and takes, and the calls of others on the reviews: those until the
entry is made, those until the name is taken, and those after that, each with the latest first. -/
structure Course where
  review : PendingReview
  early : List (Request × Reply)
  entry : LedgerEntry
  ledger : Ledger
  late : List (Request × Reply)
  taken : Option PendingReview
  after : List (Request × Reply)

def Course.between (t : Course) : List (Request × Reply) := t.late ++ t.early

def Course.Happens (t : Course) (c : Command.Context) (n : String) (purpose : Option String)
    (u v : World) : Prop :=
  get? u c.paths.pending n = some t.review ∧ ∃ w x y z l,
    Run c.paths.pending u t.early w ∧
    l.path = c.paths.ledger ∧ l.tablePath = c.paths.ledgerMarkdown ∧
    Gate.approve c.now t.review.decision purpose t.review.source (l, w) =
      (.ok t.entry, (t.ledger, x)) ∧
    Run c.paths.pending x t.late y ∧
    take c.paths.pending n y = (.ok t.taken, z) ∧
    Run c.paths.pending z t.after v

section Course
variable {c : Command.Context} {n : String} {purpose : Option String} {u v : World}
  {reviews : Dict PendingReview}

theorem happens_of_approve {report : Report} {review : PendingReview}
    (h : Command.approve c n purpose u = (.ok report, v))
    (hget : get? u c.paths.pending n = some review) :
    ∃ entry ledger taken,
      Course.Happens ⟨review, [], entry, ledger, [], taken, []⟩ c n purpose u v := by
  obtain ⟨x, entry, ledger, taken, hadd, htake⟩ := Command.approve_ok h hget
  exact ⟨entry, ledger, taken, hget, u, x, x, v, _, .start, rfl, rfl, hadd, .start, htake, .start⟩

/-- What an approval enters and takes, and what is left under the name. -/
theorem Course.Happens.outcome {t : Course} (h : t.Happens c n purpose u v)
    (hseparate : Separate c.paths u) (hkept : Kept c.paths.pending u reviews) :
    (t.ledger.entries.getLast? = some t.entry ∧ t.entry.hash = t.review.decision.hash) ∧
    (∀ review, t.taken = some review ↔ Awaits t.between n review ∨
      (∀ x ∈ t.between, ¬ x.1.Settles n) ∧ review = t.review) ∧
    (∀ review, get? v c.paths.pending n = some review ↔ Awaits t.after n review) := by
  obtain ⟨hget, w, x, y, z, l, hearly, hledger, htable, hadd, hlate, htake, hafter⟩ := h
  rw [get?, hkept.load] at hget
  have hu := Filed.of_get? hseparate hkept hget
  obtain ⟨middle, hw, hmiddle⟩ := hu.run hearly
  obtain ⟨hentry, hlast, hx⟩ := hw.add hledger htable hadd
  obtain ⟨found, hy, hfound⟩ := hx.run hlate
  obtain ⟨htaken, hz⟩ := hy.take htake
  obtain ⟨left, hv, hleft⟩ := hz.run hafter
  refine ⟨⟨hlast, by rw [hentry]; rfl⟩, fun review => ?_, fun review => ?_⟩
  · rw [htaken, hmiddle.trans hfound n review, hget, Option.some.injEq, eq_comm]
    rfl
  · rw [get?, hv.kept.load, hleft n review, Dict.get?_erase, if_pos rfl]
    simp

/-- Whoever records meanwhile, an approval enters the review that it has read and takes the one that
was recorded last. So the review that it takes has the hash of its entry exactly if the last one
that was recorded before the taking, if any since the reading, has it; and none of those recorded in
between is left. An approval that is not interrupted takes what it has read. -/
theorem approval_takes_last_recorded (hseparate : Separate c.paths u)
    (hkept : Kept c.paths.pending u reviews) :
    (∀ (t : Course) v, t.Happens c n purpose u v →
      (t.ledger.entries.getLast? = some t.entry ∧ t.entry.hash = t.review.decision.hash) ∧
      (∀ review, t.taken = some review ↔ Awaits t.between n review ∨
        (∀ x ∈ t.between, ¬ x.1.Settles n) ∧ review = t.review) ∧
      ((∀ review, t.taken = some review → review.decision.hash = t.entry.hash) ↔
        ∀ review, Awaits t.between n review → review.decision.hash = t.entry.hash) ∧
      (∀ review, get? v c.paths.pending n = some review ↔ Awaits t.after n review)) ∧
    (∀ report v review, Command.approve c n purpose u = (.ok report, v) →
      get? u c.paths.pending n = some review → ∃ t : Course, t.Happens c n purpose u v ∧
        t.review = review ∧ t.between = [] ∧ t.after = [] ∧ t.taken = some review) := by
  constructor
  · intro t v ht
    obtain ⟨⟨hlast, hhash⟩, htaken, hleft⟩ := ht.outcome hseparate hkept
    refine ⟨⟨hlast, hhash⟩, htaken, ?_, hleft⟩
    constructor
    · intro h review hawaits
      exact h review ((htaken review).mpr (.inl hawaits))
    · intro h review hreview
      rcases (htaken review).mp hreview with hawaits | ⟨-, rfl⟩
      · exact h review hawaits
      · exact hhash.symm
  · intro report v review happrove hget
    obtain ⟨entry, ledger, taken, ht⟩ := happens_of_approve happrove hget
    obtain ⟨-, htaken, -⟩ := ht.outcome hseparate hkept
    refine ⟨_, ht, rfl, rfl, rfl, (htaken review).mpr (.inr ⟨?_, rfl⟩)⟩
    simp [Course.between]

end Course

/-! A ledger beside the reviews, in the current directory. -/

def deskContext : Command.Context :=
  { Command.homeContext "ledger.json" with
    paths := ⟨"skills", "ledger.json", some "LEDGER.md", "watch.json", "pending.json", none⟩ }

/-- Nothing but files stands under the names of the reviews and the ledger. -/
def Cleared (w : World) : Prop := ∀ name ∈ deskNames ++ Ledger.plainNames, Open w name

section Cleared
variable {w v : World} {reviews : Dict PendingReview}

theorem Cleared.keepsTo (h : Cleared w) {names : List String} (hv : w.KeepsTo names v) :
    Cleared v :=
  fun name hname => hv.free name (h name hname)

theorem Cleared.not_link (h : Cleared w) {name : String}
    (hname : name ∈ deskNames ++ Ledger.plainNames) (t : String) :
    w.at? (w.cwd ++ [name]) ≠ some (.link t) := by
  rcases h name hname with hat | ⟨bytes, hat⟩ <;> simp [hat]

theorem Cleared.separate (h : Cleared w) : Separate deskContext.paths w := by
  intro path hpath r hr
  obtain ⟨name, hname, hlocal, hne⟩ : ∃ name ∈ deskNames ++ Ledger.plainNames,
      LocalPath path name ∧ name ≠ "pending.json" := by
    rcases List.mem_cons.mp hpath with rfl | hpath
    · exact ⟨"ledger.json", by decide, Ledger.store_local, by decide⟩
    · obtain rfl := List.mem_singleton.mp hpath
      exact ⟨"LEDGER.md", by decide, by decide, by decide⟩
  rw [hlocal.route] at hr
  obtain rfl := Option.some.inj hr
  have hway : w.onWay deskContext.paths.pending = [w.cwd ++ ["pending.json"]] :=
    desk_store.onWay (h.not_link (by decide))
  rw [hway]
  exact ⟨h.not_link hname, by simpa using hne⟩

theorem Cleared.call (h : Cleared w) (hkept : Kept "pending.json" w reviews) (c : Request) :
    ∃ v, c.perform "pending.json" w = (.ok (c.answer reviews), v) ∧ w.KeepsTo deskNames v :=
  hkept.call_desk (fun name hname => h name (List.mem_append_left _ hname)) c

end Cleared

def deskRecord (d : Decision) : Request := .record .newYear d "q" none

/-- A review is approved while another one is recorded. -/
theorem desk_course {first second : Decision} (hfirst : first.Fits) (hsecond : second.Fits) :
    ∃ u v reviews entry ledger taken, Separate deskContext.paths u ∧
      Kept "pending.json" u reviews ∧
      Course.Happens ⟨⟨first, "q", none, .newYear⟩, [(deskRecord second, .recorded)], entry, ledger,
        [], taken, []⟩ deskContext first.name none u v := by
  have hdesk : Cleared desk := fun _ _ => .inl rfl
  have hmissing := Kept.missing desk_fresh
  -- One review is recorded, and read.
  obtain ⟨u, hrecord, hdeskU⟩ := hdesk.call hmissing (deskRecord first)
  have hu := hdesk.keepsTo hdeskU
  have hkept : Kept "pending.json" u ((deskRecord first).after []) := hmissing.step hfirst hrecord
  have hget : ((deskRecord first).after []).get? first.name =
      some ⟨first, "q", none, .newYear⟩ := by
    rw [deskRecord, Request.after, Dict.get?_insert, if_pos rfl]
  have hfiled : Filed deskContext.paths _ u := .of_get? hu.separate hkept hget
  -- Another one is recorded.
  obtain ⟨w, hrecord', huw⟩ := hu.call hkept (deskRecord second)
  have hw := hu.keepsTo huw
  have hfits : (deskRecord second).Fits := hsecond
  obtain ⟨-, hfiled'⟩ := hfiled.step hfits hrecord'
  -- The first one is entered in a new ledger.
  have hfree : w.pathExists "ledger.json" = false := by
    have hspares := (hdeskU.trans huw).spares "ledger.json" (by decide)
    refine Ledger.store_local.missing w ?_
    rw [hspares.cwd, hspares.at? _ List.prefix_rfl]
    rfl
  have hcurrent : (Ledger.Content.load w "ledger.json").newerSchema = none := by
    rw [Ledger.load_of_missing hfree]
    rfl
  obtain ⟨ledger, x, hadd, hwx⟩ := @Ledger.add_plain w _ (.current [])
    (fun name hname => hw name (List.mem_append_right _ hname)) Ledger.table_plain hcurrent .newYear
    (Gate.entryOf first .approved .human none none)
  obtain ⟨-, -, hfiled''⟩ := hfiled'.add rfl rfl hadd
  -- The name is taken.
  obtain ⟨v, htake, -⟩ := (hw.keepsTo hwx).call hfiled''.kept (.take first.name)
  obtain ⟨taken, z, htaken, hpure⟩ := Act.bind_ok htake
  obtain ⟨-, rfl⟩ := Act.pure_ok hpure
  refine ⟨u, _, _, _, ledger, taken, hu.separate, hkept, ?_, w, x, x, _, _,
    Run.start.call hfits hrecord', rfl, rfl, hadd, .start, htaken, .start⟩
  exact (congrArg (Dict.get? · first.name) hkept.load).trans hget

def hashed (hash : String) : Decision := { undecided "x" with hash }

theorem hashed_fits (hash : String) : (hashed hash).Fits :=
  ⟨by simp [hashed, undecided], by simp [hashed, undecided], by simp [hashed, undecided]⟩

/-- A review is recorded again, with the same hash, while it is approved. -/
theorem approval_takes_last_recorded_desk : ∃ u v reviews, ∃ t : Course,
    Separate deskContext.paths u ∧ Kept "pending.json" u reviews ∧
    t.Happens deskContext "x" none u v ∧ t.between = [(deskRecord (hashed "h1"), .recorded)] ∧
    t.taken = some ⟨hashed "h1", "q", none, .newYear⟩ ∧ t.entry.hash = "h1" ∧
    get? v "pending.json" "x" = none := by
  obtain ⟨u, v, reviews, entry, ledger, taken, hseparate, hkept, ht⟩ :=
    desk_course (hashed_fits "h1") (hashed_fits "h1")
  obtain ⟨⟨-, hhash⟩, htaken, -, hleft⟩ := (approval_takes_last_recorded hseparate hkept).1 _ v ht
  refine ⟨u, v, reviews, _, hseparate, hkept, ht, rfl, ?_, hhash, ?_⟩
  · exact (htaken _).mpr (.inl ⟨rfl, [], _, [], rfl, by simp⟩)
  · refine Option.eq_none_iff_forall_ne_some.mpr fun review hreview => ?_
    exact not_awaits_nil ((hleft review).mp hreview)

/-- A review that is recorded while another one is approved is taken, although the entry has a
different hash. -/
theorem review_taken_unseen : ∃ u v reviews review, ∃ t : Course,
    Separate deskContext.paths u ∧ Kept "pending.json" u reviews ∧
    t.Happens deskContext "x" none u v ∧
    t.between = [(.record review.recordedAt review.decision review.path review.source, .recorded)] ∧
    review.decision.name = "x" ∧ t.taken = some review ∧ review.decision.hash ≠ t.entry.hash ∧
    get? v "pending.json" "x" = none := by
  obtain ⟨u, v, reviews, entry, ledger, taken, hseparate, hkept, ht⟩ :=
    desk_course (hashed_fits "h1") (hashed_fits "h2")
  obtain ⟨⟨-, hhash⟩, htaken, hleft⟩ := ht.outcome hseparate hkept
  refine ⟨u, v, reviews, ⟨hashed "h2", "q", none, .newYear⟩, _, hseparate, hkept, ht, rfl, rfl, ?_,
    ?_, ?_⟩
  · exact (htaken _).mpr (.inl ⟨rfl, [], _, [], rfl, by simp⟩)
  · rw [hhash]
    exact (by decide : "h2" ≠ "h1")
  · refine Option.eq_none_iff_forall_ne_some.mpr fun review hreview => ?_
    exact not_awaits_nil ((hleft review).mp hreview)

end SkillAudit.Pending
