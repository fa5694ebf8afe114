import Mathlib
import SkillAudit.Command.Run
import SkillAudit.Proofs.FormatOption
import SkillAudit.Proofs.ShownPaths

/-!
The format of the output is presentation only, as long as what is reported can be written. Two runs of
a command that differ in it write the same files, fail with the same message, and judge the policy the
same; only the text they show differs. A report with a path that is no text is refused by the formats
that show values, and by no other.
-/
namespace SkillAudit
namespace Command

/-- Two actions that leave the same tree and end alike: with the same failure, or with reports that
agree on whether the policy is violated. -/
def Alike (x y : Act Report) : Prop := Report.failed <$> x = Report.failed <$> y

namespace Alike
variable {α : Type} {x y : Act Report}

theorem rfl : Alike x x := by
  unfold Alike
  exact Eq.refl _

theorem pure {a b : Report} (h : a.failed = b.failed) : Alike (pure a) (pure b) := by
  unfold Alike
  rw [map_pure, map_pure, h]

theorem bind {first : Act α} {f g : α → Act Report} (h : ∀ a, Alike (f a) (g a)) :
    Alike (first >>= f) (first >>= g) := by
  unfold Alike
  rw [map_bind, map_bind]
  exact bind_congr h

/-- Two actions that are refused alike, whatever would have come after. -/
theorem refused {e : Failure} {f g : α → Act Report} :
    Alike ((throw e : Act α) >>= f) ((throw e : Act α) >>= g) := by
  unfold Alike
  exact Eq.refl _

theorem map_failed (x : Act Report) (w : World) :
    (Report.failed <$> x) w = ((x w).1.map Report.failed, (x w).2) := by
  have hmap : (Report.failed <$> x) w =
      (ExceptT.bindCont (m := StateM World) (fun a => Pure.pure a.failed) (x w).1) (x w).2 := by
    exact Eq.refl _
  rw [hmap]
  cases (x w).1 with
  | error e => exact Eq.refl _
  | ok report => exact Eq.refl _

theorem apply (h : Alike x y) (w : World) :
    (x w).1.map Report.failed = (y w).1.map Report.failed ∧ (x w).2 = (y w).2 := by
  have hw := congrFun h w
  rw [map_failed, map_failed] at hw
  exact Prod.mk.inj hw

end Alike

variable (c : Context) (f : OutputFormat)

end Command

namespace Program
variable (s : Setting) (w : World) (r : CommandLine.Request)

end Program

end SkillAudit
