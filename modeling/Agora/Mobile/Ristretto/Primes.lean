import Agora.Lib.Pratt
import Mathlib.Tactic.NormNum.Prime

/-!
# The two primes of ristretto255

The field has `p = 2^255 - 19` elements, the group `l` (about `2^252`).
-/

namespace Agora.Mobile.Ristretto

open Lib

def p : Nat := 57896044618658097711785492504343953926634992332820282019728792003956564819949

def l : Nat := 7237005577332262213973186563042994240857116359379907606001950938285454250989

def smallPrimes : List Nat :=
  [2, 3, 5, 7, 11, 13, 19, 23, 31, 41, 43, 47, 73, 103, 107, 127, 223, 269, 307, 353, 991, 1361,
   2437, 2851, 4153, 5879, 30703, 57467, 65147, 75707, 82163, 132049, 132667, 137849, 409477,
   430751, 531581, 569003, 1224481, 1923133]

/-- The factors of `p - 1` and of `l - 1`, down to `smallPrimes`. -/
def primeSteps : List PrattStep :=
  [⟨8574133, 2, [2, 2, 3, 7, 103, 991]⟩,
   ⟨14741173, 2, [2, 2, 3, 3, 409477]⟩,
   ⟨58964693, 2, [2, 2, 14741173]⟩,
   ⟨292386187, 2, [2, 3, 3, 3, 3, 307, 5879]⟩,
   ⟨2773320623, 5, [2, 2437, 569003]⟩,
   ⟨72106336199, 7, [2, 13, 2773320623]⟩,
   ⟨213441916511, 13, [2, 5, 73, 292386187]⟩,
   ⟨1257559732178653, 2, [2, 2, 3, 7, 23, 531581, 1224481]⟩,
   ⟨1919519569386763, 2, [2, 3, 7, 19, 47, 47, 127, 8574133]⟩,
   ⟨31757755568855353, 10, [2, 2, 2, 3, 31, 107, 223, 4153, 430751]⟩,
   ⟨4434155615661930479, 17, [2, 41, 43, 1257559732178653]⟩,
   ⟨3044861653679985063343, 5, [2, 3, 11, 30703, 82163, 132667, 137849]⟩,
   ⟨172054593956031949258510691, 2, [2, 5, 1361, 2851, 4434155615661930479]⟩,
   ⟨198211423230930754013084525763697, 5, [2, 2, 2, 2, 3, 23, 58964693, 3044861653679985063343]⟩,
   ⟨75445702479781427272750846543864801, 7, [2, 2, 2, 2, 2, 3, 3, 5, 5, 75707, 72106336199,
     1919519569386763]⟩,
   ⟨19757330305831588566944191468367130476339, 2, [2, 269, 213441916511,
     172054593956031949258510691]⟩,
   ⟨276602624281642239937218680557139826668747, 2, [2, 7,
     19757330305831588566944191468367130476339]⟩,
   ⟨74058212732561358302231226437062788676166966415465897661863160754340907, 2, [2, 3, 353, 57467,
     132049, 1923133, 31757755568855353, 75445702479781427272750846543864801]⟩,
   ⟨7237005577332262213973186563042994240857116359379907606001950938285454250989, 2, [2, 2, 3, 11,
     198211423230930754013084525763697, 276602624281642239937218680557139826668747]⟩,
   ⟨57896044618658097711785492504343953926634992332820282019728792003956564819949, 2, [2, 2, 3,
     65147, 74058212732561358302231226437062788676166966415465897661863160754340907]⟩]

theorem prime_of_mem_smallPrimes : ∀ q ∈ smallPrimes, q.Prime := by
  simp only [smallPrimes, List.forall_mem_cons]
  norm_num

theorem prime_of_mem_primeSteps : ∀ q ∈ primeSteps.map PrattStep.p, q.Prime :=
  prime_of_prattCheck prime_of_mem_smallPrimes (by decide +kernel)

theorem p_prime : p.Prime := prime_of_mem_primeSteps p (by simp [primeSteps, p])

theorem l_prime : l.Prime := prime_of_mem_primeSteps l (by simp [primeSteps, l])

end Agora.Mobile.Ristretto
