import DomainRules.Proofs.Text.Utf8
import DomainRules.Request
import DomainRules.Text.Percent
import Mathlib.Data.List.TakeWhile

namespace DomainRules.Text

def plainChars : List Char := "abcdefghijklmnopqrstuvwxyz0123456789-._~!".toList

def IsPlain (s : List Char) : Prop := ∀ c ∈ s, c ∈ plainChars

instance (s : List Char) : Decidable (IsPlain s) :=
  decidable_of_iff (s.all (· ∈ plainChars) = true) (by simp [IsPlain])

theorem IsPlain.tail {c : Char} {s : List Char} (h : IsPlain (c :: s)) : IsPlain s :=
  fun other ho => h other (List.mem_cons_of_mem c ho)

theorem IsPlain.notMem {s : List Char} (h : IsPlain s) {c : Char} (hc : c ∉ plainChars) : c ∉ s :=
  fun hmem => hc (h c hmem)

end DomainRules.Text
