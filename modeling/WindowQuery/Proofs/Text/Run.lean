import Mathlib.Data.List.TakeWhile
import WindowQuery.Text.Blank

/-!
# Runs of characters of a class

Readers take all characters of a class at the front of a text, and strip
those at its ends. What they take is known beforehand when a text is put
together from a run and something that does not go on with it.
-/

namespace WindowQuery.Text

variable {p : Char → Bool} {as bs cs : List Char}

/-! ## At the front -/

theorem forall_head?_cons {q : Char → Prop} {c : Char} :
    (∀ d ∈ (c :: cs).head?, q d) ↔ q c := by
  refine ⟨fun h => h c rfl, fun h d hd => ?_⟩
  obtain rfl := Option.some.inj hd
  exact h

/-- **The text goes on no run** of characters of a class. -/
def EndsRun (p : Char → Bool) (cs : List Char) : Prop := ∀ c ∈ cs.head?, p c = false

theorem endsRun_nil : EndsRun p [] := fun _ h => by cases h

theorem endsRun_cons {c : Char} : EndsRun p (c :: cs) ↔ p c = false := forall_head?_cons

theorem endsRun_dropWhile (p : Char → Bool) (cs : List Char) : EndsRun p (cs.dropWhile p) := by
  intro c hc
  have hhead := List.head?_dropWhile_not p cs
  rw [hc] at hhead
  exact hhead

/-- **A run is taken as a whole.** -/
theorem takeWhile_run_append (has : ∀ c ∈ as, p c = true) (hbs : EndsRun p bs) :
    (as ++ bs).takeWhile p = as := by
  rw [List.takeWhile_append_of_pos has]
  cases bs with
  | nil => exact List.append_nil as
  | cons b bs =>
    rw [List.takeWhile_cons_of_neg (Bool.eq_false_iff.1 (endsRun_cons.1 hbs)), List.append_nil]

theorem dropWhile_run_append (has : ∀ c ∈ as, p c = true) (hbs : EndsRun p bs) :
    (as ++ bs).dropWhile p = bs := by
  rw [List.dropWhile_append_of_pos has]
  cases bs with
  | nil => rfl
  | cons b bs => exact List.dropWhile_cons_of_neg (Bool.eq_false_iff.1 (endsRun_cons.1 hbs))

theorem dropWhile_eq_self_iff : cs.dropWhile p = cs ↔ EndsRun p cs := by
  refine ⟨fun h => h ▸ endsRun_dropWhile p cs, fun h => ?_⟩
  have hdrop : ([] ++ cs).dropWhile p = cs := dropWhile_run_append (fun _ hc => by cases hc) h
  exact hdrop

/-- **What begins no run**, where all that could follow would go on one: it has
nothing to begin with, or its first character is of another class. -/
theorem endsRun_append_iff (hbs : bs = [] ∨ ¬EndsRun p bs) :
    EndsRun p (as ++ bs) ↔ (as = [] ∧ bs = []) ∨ ∃ c ∈ as.head?, p c = false := by
  cases as with
  | nil =>
    rw [List.nil_append]
    constructor
    · exact fun h => Or.inl ⟨rfl, hbs.resolve_right (fun hn => hn h)⟩
    · rintro (⟨-, rfl⟩ | ⟨c, hc, -⟩)
      · exact endsRun_nil
      · cases hc
  | cons a as =>
    rw [List.cons_append, endsRun_cons]
    constructor
    · exact fun h => Or.inr ⟨a, rfl, h⟩
    · rintro (⟨hnil, -⟩ | ⟨c, hc, h⟩)
      · cases hnil
      · rwa [Option.some.inj hc]

/-! ## At both ends -/

/-- **Stripping a text takes its runs off both ends** and nothing else. -/
theorem stripEnds_append (has : ∀ c ∈ as, p c = true) (hbs : ∀ c ∈ bs, p c = true)
    (cs : List Char) : stripEnds p (as ++ (cs ++ bs)) = stripEnds p cs := by
  unfold stripEnds
  rw [List.dropWhile_append_of_pos has, List.dropWhile_append]
  split
  · next h =>
    have hnil : bs.dropWhile p = [] := List.dropWhile_eq_nil_iff.2 hbs
    rw [hnil, List.isEmpty_iff.1 h]
  · rw [List.reverse_append,
      List.dropWhile_append_of_pos (fun c hc => hbs c (List.mem_reverse.1 hc))]

/-- **A text is left as it is** just if no character of the class is at either of
its ends. -/
theorem stripEnds_eq_self_iff :
    stripEnds p cs = cs ↔ EndsRun p cs ∧ EndsRun p cs.reverse := by
  constructor
  · intro h
    have hfront : cs.dropWhile p = cs := by
      refine (List.dropWhile_suffix p).eq_of_length_le ?_
      calc cs.length = (stripEnds p cs).length := by rw [h]
        _ = ((cs.dropWhile p).reverse.dropWhile p).length := List.length_reverse
        _ ≤ (cs.dropWhile p).reverse.length := (List.dropWhile_suffix p).length_le
        _ = (cs.dropWhile p).length := List.length_reverse
    rw [stripEnds, hfront] at h
    exact ⟨dropWhile_eq_self_iff.1 hfront, dropWhile_eq_self_iff.1 (List.reverse_eq_iff.1 h)⟩
  · rintro ⟨hfront, hback⟩
    rw [stripEnds, dropWhile_eq_self_iff.2 hfront, dropWhile_eq_self_iff.2 hback,
      List.reverse_reverse]

/-- **Every text is one that ends in no run, and a run** after it. -/
theorem exists_eq_append_run (p : Char → Bool) (cs : List Char) :
    ∃ body run, cs = body ++ run ∧ EndsRun p body.reverse ∧ ∀ c ∈ run, p c = true := by
  refine ⟨(cs.reverse.dropWhile p).reverse, (cs.reverse.takeWhile p).reverse, ?_, ?_,
    fun c hc => List.mem_takeWhile_imp (List.mem_reverse.1 hc)⟩
  · rw [← List.reverse_append, List.takeWhile_append_dropWhile, List.reverse_reverse]
  · rw [List.reverse_reverse]
    exact endsRun_dropWhile p cs.reverse

theorem stripEnds_of_none (h : ∀ c ∈ cs, p c = false) : stripEnds p cs = cs :=
  stripEnds_eq_self_iff.2 ⟨fun c hc => h c (List.mem_of_mem_head? hc),
    fun c hc => h c (List.mem_reverse.1 (List.mem_of_mem_head? hc))⟩

end WindowQuery.Text
