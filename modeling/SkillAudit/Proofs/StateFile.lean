import Mathlib
import SkillAudit.Proofs.Route

/-!
State files. What is written at a path is read there again, and it stays while locks are taken and
other files are written, unless one of them is on the way.
-/
namespace SkillAudit

/-- A sequence of actions succeeds when each of them does. -/
theorem Act.bind_ok {σ ε α β : Type} {x : ExceptT ε (StateM σ) α}
    {f : α → ExceptT ε (StateM σ) β} {s s' : σ} {b : β} (h : (x >>= f) s = (.ok b, s')) :
    ∃ a t, x s = (.ok a, t) ∧ f a t = (.ok b, s') := by
  simp only [bind, ExceptT.bind, ExceptT.mk, StateT.bind] at h
  cases hx : x s with
  | mk r t =>
    rw [hx] at h
    cases r with
    | ok a => exact ⟨a, t, rfl, h⟩
    | error e => cases h

theorem Act.bind_of_ok {σ ε α β : Type} {x : ExceptT ε (StateM σ) α}
    {f : α → ExceptT ε (StateM σ) β} {s t : σ} {a : α} (h : x s = (.ok a, t)) :
    (x >>= f) s = f a t := by
  simp only [bind, ExceptT.bind, ExceptT.mk, StateT.bind, h]
  rfl

theorem Act.bind_of_error {σ ε α β : Type} {x : ExceptT ε (StateM σ) α}
    {f : α → ExceptT ε (StateM σ) β} {s t : σ} {e : ε} (h : x s = (.error e, t)) :
    (x >>= f) s = (.error e, t) := by
  simp only [bind, ExceptT.bind, ExceptT.mk, StateT.bind, h]
  rfl

/-- A sequence of actions fails when one of them does. -/
theorem Act.bind_error {σ ε α β : Type} {x : ExceptT ε (StateM σ) α}
    {f : α → ExceptT ε (StateM σ) β} {s s' : σ} {e : ε} (h : (x >>= f) s = (.error e, s')) :
    x s = (.error e, s') ∨ ∃ a t, x s = (.ok a, t) ∧ f a t = (.error e, s') := by
  cases hx : x s with
  | mk result t =>
    cases result with
    | ok a => exact .inr ⟨a, t, rfl, by rwa [Act.bind_of_ok hx] at h⟩
    | error e' =>
      rw [Act.bind_of_error hx] at h
      obtain ⟨he, rfl⟩ := Prod.mk.inj h
      exact .inl (by rw [Except.error.inj he])

/-- What holds after each of two actions, whether or not it succeeds, holds after both. -/
theorem Act.bind_holds {σ ε α β : Type} {P : σ → Prop} {x : ExceptT ε (StateM σ) α}
    {f : α → ExceptT ε (StateM σ) β} {s : σ} (hx : P (x s).2)
    (hf : ∀ a t, x s = (.ok a, t) → P t → P (f a t).2) : P ((x >>= f) s).2 := by
  cases hxs : x s with
  | mk result t =>
    rw [hxs] at hx
    cases result with
    | ok a =>
      rw [Act.bind_of_ok hxs]
      exact hf a t hxs hx
    | error e =>
      rw [Act.bind_of_error hxs]
      exact hx

/-- What each of two actions keeps, whether or not it succeeds, both of them keep. -/
theorem Act.bind_keeps {σ ε α β : Type} {R : σ → σ → Prop} {x : ExceptT ε (StateM σ) α}
    {f : α → ExceptT ε (StateM σ) β} {s : σ} (htrans : ∀ {a b c}, R a b → R b c → R a c)
    (hx : R s (x s).2) (hf : ∀ a t, x s = (.ok a, t) → R t (f a t).2) : R s ((x >>= f) s).2 :=
  Act.bind_holds hx fun a t ht h => htrans h (hf a t ht)

theorem Act.discard_eq {σ ε α : Type} (x : ExceptT ε (StateM σ) α) (s : σ) :
    discard x s =
      match x s with
      | (.ok _, t) => (.ok (), t)
      | (.error e, t) => (.error e, t) := by
  have hbind : discard x s = StateT.bind x (fun r => match r with
      | .ok _ => pure (.ok ())
      | .error e => pure (.error e)) s := rfl
  rw [hbind]
  simp only [StateT.bind]
  cases x s with
  | mk r t => cases r <;> rfl

theorem Act.pure_ok {σ ε α : Type} {a b : α} {s s' : σ}
    (h : (pure a : ExceptT ε (StateM σ) α) s = (.ok b, s')) : b = a ∧ s' = s := by
  cases h
  exact ⟨rfl, rfl⟩

theorem Act.change_ok {path : String} {f : World → Except OsError World} {w w' : World}
    (h : Act.change path f w = (.ok (), w')) : f w = .ok w' := by
  unfold Act.change at h
  split at h
  next u hu =>
    cases h
    exact hu
  next => cases h

namespace World

/-- What a tree becomes while files are put at the places `written`: directories stay, and so does
everything at other places, and no link is new. -/
structure Evolves (written : List Place) (w w' : World) : Prop where
  cwd : w'.cwd = w.cwd
  keeps : ∀ p n, p ∉ written ∨ n = .dir → w.at? p = some n → w'.at? p = some n
  link : ∀ p t, w'.at? p = some (.link t) → w.at? p = some (.link t)

section Evolves
variable {u w w' : World} {before written : List Place} {path : String} {r : Route}
  {bytes : ByteArray}

theorem Grows.evolves (h : Grows w w') : Evolves [] w w' where
  cwd := h.cwd
  keeps p n _ hp := h.keeps p n hp
  link _ _ := h.link

theorem Evolves.trans (h : Evolves before u w) (h' : Evolves written w w') :
    Evolves (before ++ written) u w' where
  cwd := h'.cwd.trans h.cwd
  keeps p n hp hat := by
    have hp1 : p ∉ before ∨ n = .dir := hp.imp_left fun hne hin => hne (by simp [hin])
    have hp2 : p ∉ written ∨ n = .dir := hp.imp_left fun hne hin => hne (by simp [hin])
    exact h'.keeps p n hp2 (h.keeps p n hp1 hat)
  link p t hp := h.link p t (h'.link p t hp)

theorem Evolves.put {p : Place} (hp : p ≠ []) (hdir : w.at? p ≠ some .dir) (bytes : ByteArray) :
    Evolves [p] w (w.put p (.file bytes)) where
  cwd := rfl
  keeps q n hq hat := by
    have hne : q ≠ p := by
      rintro rfl
      rcases hq with hq | rfl
      · simp at hq
      · exact hdir hat
    rw [at?_put_ne w hne, hat]
  link q t hq := by
    by_cases hqp : q = p
    · subst hqp
      rw [at?_put_self w hp] at hq
      cases hq
    · rwa [at?_put_ne w hqp] at hq

theorem Evolves.start (h : Evolves written w w') (path : String) :
    w'.start path = w.start path := by
  rw [World.start, World.start, h.cwd]

theorem Evolves.route (h : Evolves written w w') (hr : w.route? path = some r)
    (hlinks : ∀ q ∈ r.links, q ∉ written) : w'.route? path = some r := by
  rw [route?, h.start path]
  exact course_congr hr (fun q hq t hat => h.keeps q _ (.inl (hlinks q hq)) hat) h.link

theorem resolve_of_find {w : World} {path : String} {p : Place} {n : Node}
    (h : w.find path = .ok (p, n)) : w.resolve true path = .ok (.taken p n) := by
  unfold World.find at h
  split at h
  next => cases h
  next => cases h
  next q m hq =>
    cases h
    exact hq

/-- What a path finds, it finds in a larger tree. -/
theorem find_keeps {w w' : World} {path : String} {found : Place × Node} (hcwd : w'.cwd = w.cwd)
    (hkeeps : ∀ q n, w.at? q = some n → w'.at? q = some n) (h : w.find path = .ok found) :
    w'.find path = .ok found := by
  obtain ⟨p, n⟩ := found
  have hstart : w'.start path = w.start path := by rw [World.start, World.start, hcwd]
  have hfound := resolve_of_find h
  obtain ⟨trail, hleads⟩ := leads_of_resolve hfound
  have hleads' := leads_keeps hkeeps hleads
  rw [← hstart] at hleads'
  simp only [World.find, resolve_of_leads hfound hleads']

/-- A path that leads, along a route, to a file. -/
structure Holds (w : World) (path : String) (r : Route) (bytes : ByteArray) : Prop where
  route : w.route? path = some r
  found : w.resolve false path = .ok (.taken r.place (.file bytes))

theorem Holds.slash (h : Holds w path r bytes) : endsInSlash path = false := by
  obtain ⟨trail, hleads⟩ := leads_of_resolve h.found
  exact slash_of_leads_file hleads

theorem Holds.leads (h : Holds w path r bytes) :
    Leads w false false linkLimit (w.start path) (namesOf path) r.links
      (.taken r.place (.file bytes)) := by
  obtain ⟨trail, hleads⟩ := leads_of_resolve h.found
  rw [h.slash] at hleads
  have hcourse := course_of_leads hleads
  have hr := h.route
  rw [route?, hcourse] at hr
  have htrail : trail = r.links := congrArg Route.links (Option.some.inj hr)
  rwa [htrail] at hleads

theorem Holds.at? (h : Holds w path r bytes) : w.at? r.place = some (.file bytes) := by
  rcases leads_taken h.leads with hdir | ⟨hat, -⟩
  · cases hdir
  · exact hat

/-- A file is not one of the links that lead to it. -/
theorem Holds.own (h : Holds w path r bytes) : r.place ∉ r.links := by
  intro hmem
  obtain ⟨t, ht⟩ := link_of_leads h.leads r.place hmem
  rw [h.at?] at ht
  cases ht

theorem Holds.find (h : Holds w path r bytes) : w.find path = .ok (r.place, .file bytes) := by
  have hleads := leads_file h.leads (by simp) (fun _ hq => hq) (fun _ _ _ hq => hq) h.at? true
  have hfound : w.resolve true path = .ok (.taken r.place (.file bytes)) :=
    resolve_of_leads h.found (by rw [h.slash]; exact hleads)
  simp only [World.find, hfound]

/-- A file stays where a path leads while others are written that are not on the way. -/
theorem Holds.evolves (h : Holds w path r bytes) (hw : Evolves written w w')
    (hplace : r.place ∉ written) (hlinks : ∀ q ∈ r.links, q ∉ written) :
    Holds w' path r bytes where
  route := hw.route h.route hlinks
  found := by
    have hat : w'.at? r.place = some (.file bytes) := hw.keeps _ _ (.inl hplace) h.at?
    have hleads := leads_file h.leads (by simp) (fun q => hw.keeps q _ (.inr rfl))
      (fun q hq t => hw.keeps q _ (.inl (hlinks q hq))) hat false
    rw [← hw.start path] at hleads
    exact resolve_of_leads h.found (by rw [h.slash]; exact hleads)

end Evolves

theorem replaceFile_ok {w w' : World} {path : String} {bytes : ByteArray}
    (h : w.replaceFile path bytes = .ok w') :
    endsInSlash path = false ∧ ∃ spot, w.resolve false path = .ok spot ∧
      (∀ q, spot ≠ .taken q .dir) ∧ w' = w.put spot.place (.file bytes) := by
  unfold replaceFile at h
  split at h
  next => cases h
  next =>
    split at h
    next => cases h
    next =>
      split at h
      next => cases h
      next =>
        split at h
        next => cases h
        next hslash =>
          refine ⟨by simpa [endsInSlash] using hslash, ?_⟩
          split at h
          next => cases h
          next => cases h
          next p n hdir hp =>
            cases h
            refine ⟨_, hp, fun q hq => ?_, rfl⟩
            cases hq
            exact hdir rfl
          next p hp =>
            cases h
            exact ⟨_, hp, by simp, rfl⟩

/-- Where a walk ends that does not end at a directory. -/
theorem leads_place_free {w : World} {follow slash : Bool} {links : Nat} {here : Place}
    {names : List String} {trail : List Place} {spot : Spot}
    (h : Leads w follow slash links here names trail spot) (hspot : ∀ q, spot ≠ .taken q .dir) :
    spot.place ≠ [] ∧ w.at? spot.place ≠ some .dir := by
  cases spot with
  | free p =>
    obtain ⟨hat, hne⟩ := leads_free h
    exact ⟨hne, by simp [Spot.place, hat]⟩
  | taken p n =>
    have hn : n ≠ .dir := by
      rintro rfl
      exact hspot p rfl
    rcases leads_taken h with hdir | ⟨hat, hne⟩
    · exact absurd hdir hn
    · exact ⟨hne, by simpa [Spot.place, hat] using hn⟩

end World

namespace Store

theorem touch_change_grows (path : String) (w : World) :
    w.Grows (Act.change path (·.touch path) w).2 := by
  unfold Act.change
  split
  next w' htouch => exact World.touch_grows htouch
  next => exact .refl w

/-- Whether or not the lock is taken, nothing is lost. -/
theorem lock_grows_always (path : String) (w : World) : w.Grows (lock path w).2 := by
  unfold lock
  cases Path.parent (lockPath path) with
  | some dir =>
    exact Act.bind_keeps World.Grows.trans (makeDirs_grows dir w)
      fun _ v _ => touch_change_grows _ v
  | none => exact touch_change_grows _ w

theorem lock_grows {path : String} {w w' : World} (h : lock path w = (.ok (), w')) :
    w.Grows w' := by
  have hgrows := lock_grows_always path w
  rwa [h] at hgrows

section Write
variable {path : String} {bytes : ByteArray} {w w' : World} {r : Route}

/-- A file is written where its path leads, once there are directories on the way. -/
theorem write_cases (h : write path bytes w = (.ok (), w')) (hr : w.route? path = some r) :
    ∃ v trail spot, w.Grows v ∧ World.endsInSlash path = false ∧ v.resolve false path = .ok spot ∧
      World.Leads v false false World.linkLimit (v.start path) (World.namesOf path) trail spot ∧
      (∀ q, spot ≠ .taken q .dir) ∧ r = ⟨trail, spot.place⟩ ∧
      w' = v.put spot.place (.file bytes) := by
  obtain ⟨_, v, hdirs, hchange⟩ := Act.bind_ok h
  -- Directories come first, and the route goes through them as it went through what was missing.
  have hgrows := makeDirs_grows (directoryOf path) w
  rw [hdirs] at hgrows
  have hroute : v.route? path = some r := hgrows.evolves.route hr (by simp)
  obtain ⟨hslash, spot, hspot, hdir, hw'⟩ := World.replaceFile_ok (Act.change_ok hchange)
  obtain ⟨trail, hleads⟩ := World.leads_of_resolve hspot
  rw [hslash] at hleads
  rw [World.route?, World.course_of_leads hleads] at hroute
  exact ⟨v, trail, spot, hgrows, hslash, hspot, hleads, hdir, (Option.some.inj hroute).symm, hw'⟩

/-- Nothing changes but what stands where the path leads, and new directories. -/
theorem write_evolves (h : write path bytes w = (.ok (), w')) (hr : w.route? path = some r) :
    w.Evolves [r.place] w' := by
  obtain ⟨v, trail, spot, hgrows, -, -, hleads, hdir, rfl, rfl⟩ := write_cases h hr
  obtain ⟨hne, hfree⟩ := World.leads_place_free hleads hdir
  simpa using hgrows.evolves.trans (.put hne hfree bytes)

/-- A file that has been written is found where its path leads, and nothing else has changed but
for new directories. -/
theorem write_ok (h : write path bytes w = (.ok (), w')) (hr : w.route? path = some r)
    (hself : r.place ∉ r.links) : w.Evolves [r.place] w' ∧ w'.Holds path r bytes := by
  have hevolves := write_evolves h hr
  obtain ⟨v, trail, spot, hgrows, hslash, hspot, hleads, hdir, rfl, rfl⟩ := write_cases h hr
  obtain ⟨hne, hfree⟩ := World.leads_place_free hleads hdir
  have hput : v.Evolves [spot.place] (v.put spot.place (.file bytes)) := .put hne hfree bytes
  have hlinks : ∀ q ∈ trail, q ∉ [spot.place] := by
    intro q hq heq
    rw [List.mem_singleton.mp heq] at hq
    exact hself hq
  have hfile := World.leads_file hleads hdir (fun q => hput.keeps q _ (.inr rfl))
    (fun q hq t => hput.keeps q _ (.inl (hlinks q hq))) (World.at?_put_self v hne (.file bytes)) false
  refine ⟨hevolves, hevolves.route hr hlinks, ?_⟩
  exact World.resolve_of_leads hspot (by rw [hslash]; exact hfile)

end Write

theorem fromUTF8?_toUTF8 (text : String) : String.fromUTF8? text.toUTF8 = some text := by
  have hvalid : text.toByteArray.IsValidUTF8 := text.isValidUTF8
  simp [String.fromUTF8?, hvalid, String.fromUTF8]

theorem read?_of_holds {w : World} {path : String} {r : Route} {text : String}
    (h : w.Holds path r text.toUTF8) : read? w path = some text := by
  simp only [read?, World.readText, World.readFile, h.find, fromUTF8?_toUTF8, Except.toOption]

/-! Reading while the tree grows. -/

theorem read?_eq_some {w : World} {path text : String} (h : read? w path = some text) :
    ∃ p bytes, w.find path = .ok (p, .file bytes) ∧ String.fromUTF8? bytes = some text := by
  unfold read? World.readText World.readFile at h
  cases hfind : w.find path with
  | error e => simp [hfind, Except.toOption] at h
  | ok found =>
    obtain ⟨p, n⟩ := found
    cases n with
    | dir => simp [hfind, Except.toOption] at h
    | link t => simp [hfind, Except.toOption] at h
    | file bytes =>
      cases hutf8 : String.fromUTF8? bytes with
      | none => simp [hfind, hutf8, Except.toOption] at h
      | some s =>
        simp only [hfind, hutf8, Except.toOption, Option.some.injEq] at h
        exact ⟨p, bytes, rfl, by rw [hutf8, h]⟩

/-- Nothing, a directory or an empty file: what stands where there is no state yet. -/
def Blank (w : World) (p : Place) : Prop :=
  w.at? p = none ∨ w.at? p = some .dir ∨ w.at? p = some (.file .empty)

theorem Blank.grows {w w' : World} {p : Place} (h : Blank w p) (hw : w.Grows w') : Blank w' p := by
  rcases h with h | h | h
  · exact hw.adds p h
  · exact .inr (.inl (hw.keeps p _ h))
  · exact .inr (.inr (hw.keeps p _ h))

/-- A tree that grows has the same courses: no link is new and none is lost. -/
theorem course_of_grows {w w' : World} (hw : w.Grows w') (follow : Bool) (links : Nat)
    (here : Place) (names : List String) :
    w'.course follow links here names = w.course follow links here names := by
  have hlink : ∀ q t, w'.at? q = some (.link t) → w.at? q = some (.link t) := fun _ _ => hw.link
  cases h : w.course follow links here names with
  | some g => exact World.course_congr h (fun q _ t => hw.keeps q _) hlink
  | none =>
    cases h' : w'.course follow links here names with
    | none => rfl
    | some g =>
      have hback := World.course_congr h' (fun q _ => hlink q) (fun q _ => hw.keeps q _)
      rw [hback] at h
      cases h

theorem goal?_of_grows {w w' : World} (hw : w.Grows w') (path : String) :
    w'.goal? path = w.goal? path := by
  rw [World.goal?, World.goal?, hw.evolves.start path, course_of_grows hw]

theorem route?_of_grows {w w' : World} (hw : w.Grows w') (path : String) :
    w'.route? path = w.route? path := by
  rw [World.route?, World.route?, hw.evolves.start path, course_of_grows hw]

theorem route_of_write {path : String} {bytes : ByteArray} {w w' : World}
    (h : write path bytes w = (.ok (), w')) : ∃ r, w.route? path = some r := by
  obtain ⟨_, v, hdirs, hchange⟩ := Act.bind_ok h
  have hgrows := makeDirs_grows (directoryOf path) w
  rw [hdirs] at hgrows
  obtain ⟨hslash, spot, hspot, -, -⟩ := World.replaceFile_ok (Act.change_ok hchange)
  obtain ⟨trail, hleads⟩ := World.leads_of_resolve hspot
  rw [hslash] at hleads
  exact ⟨_, (route?_of_grows hgrows path).symm.trans (World.course_of_leads hleads)⟩

/-- A write that fails has made directories at most. -/
theorem grows_of_write_error {path : String} {bytes : ByteArray} {w w' : World} {e : AuditError}
    (h : write path bytes w = (.error e, w')) : w.Grows w' := by
  have hgrows := makeDirs_grows (directoryOf path) w
  cases hdirs : Act.makeDirs (directoryOf path) w with
  | mk result v =>
    rw [hdirs] at hgrows
    cases result with
    | error =>
      rw [write, Act.bind_of_error hdirs] at h
      obtain rfl := (Prod.mk.inj h).2
      exact hgrows
    | ok =>
      rw [write, Act.bind_of_ok hdirs] at h
      unfold Act.change at h
      split at h
      next => cases h
      next =>
        obtain rfl := (Prod.mk.inj h).2
        exact hgrows

theorem goal?_of_find {w : World} {path : String} {p : Place} {bytes : ByteArray}
    (h : w.find path = .ok (p, .file bytes)) :
    ∃ g, w.goal? path = some g ∧ w.at? g.place = some (.file bytes) := by
  obtain ⟨trail, hleads⟩ := World.leads_of_resolve (World.resolve_of_find h)
  rw [World.slash_of_leads_file hleads] at hleads
  refine ⟨_, World.course_of_leads hleads, ?_⟩
  rcases World.leads_taken hleads with hdir | ⟨hat, -⟩
  · cases hdir
  · exact hat

/-- A path at which nothing comes into view by taking locks and making directories: something is
found there, or there is no state yet where it leads. -/
def Steady (w : World) (path : String) : Prop :=
  (∃ found, w.find path = .ok found) ∨ ∀ g, w.goal? path = some g → Blank w g.place

/-- An empty text is read where there is no state yet. -/
theorem read?_of_blank {w : World} {path : String}
    (h : ∀ g, w.goal? path = some g → Blank w g.place) : (read? w path).getD "" = "" := by
  cases hread : read? w path with
  | none => rfl
  | some text =>
    obtain ⟨p, bytes, hfind, htext⟩ := read?_eq_some hread
    obtain ⟨g, hg, hat⟩ := goal?_of_find hfind
    have hempty : bytes = .empty := by
      rcases h g hg with h | h | h <;> simp_all
    rw [hempty] at htext
    have hnone : String.fromUTF8? .empty = some "" := by decide
    exact Option.some.inj (htext.symm.trans hnone)

theorem find_of_grows {w w' : World} {path : String} {found : Place × Node} (hw : w.Grows w')
    (h : w.find path = .ok found) : w'.find path = .ok found :=
  World.find_keeps hw.cwd hw.keeps h

theorem read?_of_grows {w w' : World} {path text : String} (hw : w.Grows w')
    (h : read? w path = some text) : read? w' path = some text := by
  obtain ⟨p, bytes, hfind, htext⟩ := read?_eq_some h
  simp only [read?, World.readText, World.readFile, find_of_grows hw hfind, htext, Except.toOption]

theorem blank_of_grows {w w' : World} {path : String} (hw : w.Grows w')
    (h : ∀ g, w.goal? path = some g → Blank w g.place) :
    ∀ g, w'.goal? path = some g → Blank w' g.place := by
  intro g hg
  rw [goal?_of_grows hw] at hg
  exact (h g hg).grows hw

theorem Steady.grows {w w' : World} {path : String} (h : Steady w path) (hw : w.Grows w') :
    Steady w' path := by
  rcases h with ⟨found, h⟩ | h
  · exact .inl ⟨found, find_of_grows hw h⟩
  · exact .inr (blank_of_grows hw h)

theorem Steady.read? {w w' : World} {path : String} (h : Steady w path) (hw : w.Grows w') :
    (Store.read? w' path).getD "" = (Store.read? w path).getD "" := by
  rcases h with ⟨found, h⟩ | h
  · simp only [Store.read?, World.readText, World.readFile, h, find_of_grows hw h]
  · rw [read?_of_blank h, read?_of_blank (blank_of_grows hw h)]

end Store
end SkillAudit
