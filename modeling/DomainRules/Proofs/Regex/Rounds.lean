import DomainRules.Regex.Match

/-!
The rounds of a repetition come to an end. Every part of an expression moves the cursor in its own
direction and not beyond the subject, and a round beyond the least number has to move it, so there
are no more of these than there are units left. More fuel than a repetition has changes nothing.
-/
namespace DomainRules

namespace Path

/-- What comes afterwards matters only at cursors in the given relation to the first one. -/
def Within (way : Path) (R : Cursor → Cursor → Prop) : Prop :=
  ∀ (cursor : Cursor) (next other : Cursor → Option Cursor),
    (∀ reached, R cursor reached → next reached = other reached) →
      way cursor next = way cursor other

variable {R : Cursor → Cursor → Prop}

theorem within_stay (hR : ∀ c, R c c) : stay.Within R :=
  fun cursor _ _ h => h cursor (hR cursor)

theorem within_check (holds : Cursor → Bool) (hR : ∀ c, R c c) : (check holds).Within R := by
  intro cursor next other h
  unfold check
  rw [h cursor (hR cursor)]

theorem Within.andThen {first second : Path} (hf : first.Within R) (hs : second.Within R)
    (htrans : ∀ c d e, R c d → R d e → R c e) : (first.andThen second).Within R := by
  intro cursor next other h
  apply hf
  intro middle hm
  apply hs
  intro reached hr
  exact h reached (htrans cursor middle reached hm hr)

theorem Within.orElse {first second : Path} (hf : first.Within R) (hs : second.Within R) :
    (first.orElse second).Within R := by
  intro cursor next other h
  unfold Path.orElse
  rw [hf cursor next other h, hs cursor next other h]

theorem loop_succ (way : Path) (release : Cursor → Cursor) (isLazy : Bool) (fuel least : Nat)
    (most : Option Nat) :
    loop way release isLazy (fuel + 1) least most =
      if most = some 0 then stay
      else
        let onward :=
          way.round release least (loop way release isLazy fuel (least - 1) (most.map (· - 1)))
        if least ≠ 0 then onward
        else if isLazy then stay.orElse onward
        else onward.orElse stay := rfl

theorem Within.round {way rest : Path} {release : Cursor → Cursor} (hw : way.Within R)
    (hr : rest.Within R) (htrans : ∀ c d e, R c d → R d e → R c e)
    (hrel : ∀ c d, R (release c) d → R c d) (least : Nat) :
    (way.round release least rest).Within R := by
  intro cursor next other h
  apply hw
  intro middle hm
  have hrest : rest middle next = rest middle other :=
    hr middle next other fun reached hd => h reached (htrans _ _ _ (hrel cursor middle hm) hd)
  rw [hrest]

theorem within_loop {way : Path} {release : Cursor → Cursor} (hw : way.Within R)
    (hrefl : ∀ c, R c c) (htrans : ∀ c d e, R c d → R d e → R c e)
    (hrel : ∀ c d, R (release c) d → R c d) (isLazy : Bool) (fuel : Nat) :
    ∀ (least : Nat) (most : Option Nat), (loop way release isLazy fuel least most).Within R := by
  induction fuel with
  | zero => intro least most cursor next other h; rfl
  | succ fuel ih =>
    intro least most
    have honward := hw.round (ih (least - 1) (most.map (· - 1))) htrans hrel least
    rw [loop_succ]
    split
    · exact within_stay hrefl
    · dsimp only
      split
      · exact honward
      · split
        · exact (within_stay hrefl).orElse honward
        · exact honward.orElse (within_stay hrefl)

def unitsLeft (subject : Array UInt16) (isBackward : Bool) (place : Nat) : Nat :=
  if isBackward then place else subject.size - place

/-- A cursor is where another one was, or further on. -/
def Nears (subject : Array UInt16) (isBackward : Bool) (c d : Cursor) : Prop :=
  d.place = c.place ∨
    unitsLeft subject isBackward d.place < unitsLeft subject isBackward c.place

variable {subject : Array UInt16} {isBackward : Bool}

theorem Nears.refl (c : Cursor) : Nears subject isBackward c c := Or.inl rfl

theorem Nears.trans (c d e : Cursor) (hd : Nears subject isBackward c d)
    (he : Nears subject isBackward d e) : Nears subject isBackward c e := by
  unfold Nears at *
  rcases he with he | he
  · rwa [he]
  · rcases hd with hd | hd
    · rw [hd] at he
      exact Or.inr he
    · exact Or.inr (Nat.lt_trans he hd)

theorem within_step (holds : UInt16 → Bool) :
    (step subject isBackward holds).Within (Nears subject isBackward) := by
  intro cursor next other h
  unfold step
  split
  · rfl
  · rename_i hstart
    dsimp only
    split
    · rename_i u hu
      split
      · -- Forward there is a unit at the place, backward the place is not the first one.
        apply h
        refine Or.inr ?_
        have hsize := (Array.getElem?_eq_some_iff.mp hu).1
        cases isBackward with
        | true =>
          simp only [Bool.true_and, decide_eq_true_eq] at hstart
          simp only [unitsLeft, ↓reduceIte]
          omega
        | false =>
          simp only [Bool.false_eq_true, ↓reduceIte] at hsize
          simp only [unitsLeft, Bool.false_eq_true, ↓reduceIte]
          omega
      · rfl
    · rfl

theorem within_again (mode : Mode) (first last : Nat) :
    (again subject mode isBackward first last).Within (Nears subject isBackward) := by
  have hall (ways : List Path) (h : ∀ way ∈ ways, way.Within (Nears subject isBackward)) :
      (ways.foldr andThen stay).Within (Nears subject isBackward) := by
    induction ways with
    | nil => exact within_stay .refl
    | cons way ways ih =>
      have hrest := ih fun other ho => h other (List.mem_cons_of_mem _ ho)
      exact (h way List.mem_cons_self).andThen hrest .trans
  apply hall
  intro way hway
  have hmem : way ∈ (subject.extract first last).toList.map fun v =>
      step subject isBackward fun u => mode.areSame u v := by
    split at hway
    · exact List.mem_reverse.mp hway
    · exact hway
  obtain ⟨v, _, rfl⟩ := List.mem_map.mp hmem
  exact within_step _

/-- A round takes one from the least number or from the units that lie ahead, so fuel beyond both
together is of no use. -/
theorem loop_succ_eq {way : Path} {release : Cursor → Cursor}
    (hw : way.Within (Nears subject isBackward)) (hrel : ∀ c, (release c).place = c.place)
    (isLazy : Bool) (fuel : Nat) :
    ∀ (least : Nat) (most : Option Nat) (cursor : Cursor) (next : Cursor → Option Cursor),
      least + unitsLeft subject isBackward cursor.place < fuel →
        loop way release isLazy (fuel + 1) least most cursor next =
          loop way release isLazy fuel least most cursor next := by
  induction fuel with
  | zero => intro least most cursor next h; omega
  | succ fuel ih =>
    intro least most cursor next h
    -- A round that goes on counts the least number down or takes a unit: the measure falls.
    have honward :
        way.round release least (loop way release isLazy (fuel + 1) (least - 1)
            (most.map (· - 1))) cursor next =
          way.round release least (loop way release isLazy fuel (least - 1)
            (most.map (· - 1))) cursor next := by
      apply hw
      intro reached hr
      split
      · rfl
      · rename_i hmoved
        rw [Bool.and_eq_true, decide_eq_true_eq, decide_eq_true_eq] at hmoved
        apply ih
        rw [Nears, hrel] at hr
        rcases hr with hr | hr
        · rw [hr]
          omega
        · omega
    rw [loop_succ way release isLazy (fuel + 1) least most,
      loop_succ way release isLazy fuel least most]
    dsimp only
    split
    · rfl
    · split
      · exact honward
      · split
        · unfold orElse
          rw [honward]
        · unfold orElse
          rw [honward]

theorem loop_add_eq {way : Path} {release : Cursor → Cursor}
    (hw : way.Within (Nears subject isBackward)) (hrel : ∀ c, (release c).place = c.place)
    (isLazy : Bool) {fuel least : Nat} (most : Option Nat) (cursor : Cursor)
    (next : Cursor → Option Cursor)
    (h : least + unitsLeft subject isBackward cursor.place < fuel) (more : Nat) :
    loop way release isLazy (fuel + more) least most cursor next =
      loop way release isLazy fuel least most cursor next := by
  induction more with
  | zero => rfl
  | succ more ih =>
    rw [← ih]
    exact loop_succ_eq hw hrel isLazy (fuel + more) least most cursor next (by omega)

end Path

namespace Regex

variable (subject : Array UInt16)

theorem within_path (groups : List (Option GroupName)) (r : Regex) :
    ∀ (mode : Mode) (index : Nat) (isBackward : Bool),
      (r.path subject groups mode index isBackward).Within (Path.Nears subject isBackward) := by
  induction r with
  | empty => intro mode index isBackward; exact Path.within_stay .refl
  | unit v => intro mode index isBackward; exact Path.within_step _
  | any => intro mode index isBackward; exact Path.within_step _
  | escape kind negated => intro mode index isBackward; exact Path.within_step _
  | oneOf negated members => intro mode index isBackward; exact Path.within_step _
  | start => intro mode index isBackward; exact Path.within_check _ .refl
  | finish => intro mode index isBackward; exact Path.within_check _ .refl
  | wordEdge negated => intro mode index isBackward; exact Path.within_check _ .refl
  | look behind negated body ih =>
    -- What is looked at is left again, so it does not matter where it is.
    intro mode index isBackward cursor next other h
    unfold path
    split
    · rename_i reached hreached
      have hback := h { reached with place := cursor.place } (Or.inl rfl)
      rw [hback]
    · rw [h cursor (.refl cursor)]
  | backreference target =>
    intro mode index isBackward cursor next other h
    unfold path
    split
    · exact Path.within_again mode _ _ cursor next other h
    · exact h cursor (.refl cursor)
  | group kind body ih =>
    intro mode index isBackward
    cases kind with
    | plain => exact ih mode index isBackward
    | modified on off => exact ih (mode.switch on off) index isBackward
    | capture name =>
      intro cursor next other h
      apply ih
      intro reached hr
      exact h (reached.capture index cursor.place reached.place) hr
  | repeated body times isLazy ih =>
    intro mode index isBackward
    refine Path.within_loop (ih mode index isBackward) .refl .trans ?_ isLazy _ _ _
    exact fun c d h => h
  | concat first rest ihf ihr =>
    intro mode index isBackward
    have hf := ihf mode index isBackward
    have hr := ihr mode (index + first.captures.length) isBackward
    cases isBackward with
    | true => exact hr.andThen hf .trans
    | false => exact hf.andThen hr .trans
  | either left right ihl ihr =>
    intro mode index isBackward
    exact (ihl mode index isBackward).orElse (ihr mode _ isBackward)

/-- A repetition is its rounds with any fuel beyond what it has: none of its ways is cut off. -/
theorem path_repeated_eq_loop (groups : List (Option GroupName)) (body : Regex)
    (times : Repetition) (isLazy : Bool) (mode : Mode) (index : Nat) (isBackward : Bool)
    {cursor : Cursor} (h : cursor.place ≤ subject.size) (next : Cursor → Option Cursor)
    (more : Nat) :
    (repeated body times isLazy).path subject groups mode index isBackward cursor next =
      Path.loop (body.path subject groups mode index isBackward)
        (·.release index body.captures.length) isLazy
        (times.bounds.1 + subject.size + 1 + more) times.bounds.1 times.bounds.2 cursor next := by
  have hleft : Path.unitsLeft subject isBackward cursor.place ≤ subject.size := by
    unfold Path.unitsLeft
    split
    · exact h
    · exact Nat.sub_le _ _
  have hbody := within_path subject groups body mode index isBackward
  have hfuel : times.bounds.1 + Path.unitsLeft subject isBackward cursor.place <
      times.bounds.1 + subject.size + 1 := by omega
  have hrelease (c : Cursor) : (c.release index body.captures.length).place = c.place := rfl
  exact (Path.loop_add_eq hbody hrelease isLazy times.bounds.2 cursor next hfuel more).symm

end Regex

end DomainRules
