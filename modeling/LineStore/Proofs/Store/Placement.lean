import LineStore.Server.Settings
import LineStore.Store.Placement
import Mathlib.Algebra.BigOperators.Fin
import Mathlib.Data.Nat.ModEq

/-!
Only the end of a key has a say in where it belongs.

A key spells a number, and its bucket is what is left of this number. The number of buckets divides what the
octets before the last few ones add to it, or the size of a word does.
-/

namespace LineStore.Store

/-- The number that octets spell in base 32, highest first. They may be greater than 31. -/
def spelled (octets : Bytes) : Nat :=
  ∑ i : Fin octets.length, octets[i].toNat * 32 ^ (octets.length - 1 - i)

theorem spelled_cons (octet : UInt8) (octets : Bytes) :
    spelled (octet :: octets) = octet.toNat * 32 ^ octets.length + spelled octets := by
  rw [spelled, spelled]
  simp only [List.length_cons]
  rw [Fin.sum_univ_succ]
  simp [Nat.sub_sub, Nat.add_comm]

theorem spelled_append (before after : Bytes) :
    spelled (before ++ after) = spelled before * 32 ^ after.length + spelled after := by
  induction before with
  | nil => simp [spelled]
  | cons octet before ih =>
    rw [List.cons_append, spelled_cons, spelled_cons, ih, List.length_append, Nat.pow_add, Nat.add_mul,
      Nat.mul_assoc, Nat.add_assoc]

/-! ### The hash -/

theorem toNat_shiftLeft_add (hash : UInt32) (octet : UInt8) :
    ((hash <<< 5) + octet.toUInt32).toNat ≡ hash.toNat * 32 + octet.toNat [MOD 2 ^ 32] := by
  rw [UInt32.toNat_add, UInt32.toNat_shiftLeft, UInt8.toNat_toUInt32, Nat.shiftLeft_eq]
  exact (Nat.mod_modEq _ _).trans ((Nat.mod_modEq _ _).add_right _)

/-- What the bits that are lost on the way would have been is a multiple of the size of a word. -/
theorem toNat_foldl_modEq (octets : Bytes) (hash : UInt32) :
    (octets.foldl (fun (hash : UInt32) octet => (hash <<< 5) + octet.toUInt32) hash).toNat ≡
      hash.toNat * 32 ^ octets.length + spelled octets [MOD 2 ^ 32] := by
  induction octets generalizing hash with
  | nil => simp [spelled, Nat.ModEq.refl]
  | cons octet octets ih =>
    have hstep := ((toNat_shiftLeft_add hash octet).mul_right (32 ^ octets.length)).add_right
      (spelled octets)
    refine (ih _).trans (hstep.trans ?_)
    rw [spelled_cons, List.length_cons, Nat.pow_succ' (n := octets.length), Nat.add_mul, Nat.mul_assoc,
      Nat.add_assoc]

theorem toNat_rollingHash (key : String) :
    (rollingHash key).toNat = spelled (Utf8.encode key) % 2 ^ 32 := by
  have h := toNat_foldl_modEq (Utf8.encode key) 0
  rw [UInt32.toNat_zero, Nat.zero_mul, Nat.zero_add] at h
  exact (Nat.mod_eq_of_lt (UInt32.toNat_lt _)).symm.trans h

/-! ### Keys with the same end -/

/-- Whether two keys have at least `n` octets and the last `n` of them are the same. -/
def SameEnd (n : Nat) (key key' : String) : Prop :=
  ∃ ending : Bytes, ending.length = n ∧ ending <:+ Utf8.encode key ∧ ending <:+ Utf8.encode key'

variable {n : Nat} {key key' : String}

theorem spelled_modEq_of_suffix {octets ending : Bytes} {modulus : Nat} (h : ending <:+ octets)
    (hdvd : modulus ∣ 32 ^ ending.length) : spelled octets ≡ spelled ending [MOD modulus] := by
  obtain ⟨before, rfl⟩ := h
  rw [spelled_append]
  have hbefore := (Nat.modEq_zero_iff_dvd.2 hdvd).mul_left (spelled before)
  simpa using hbefore.add_right (spelled ending)

theorem SameEnd.spelled_modEq {modulus : Nat} (h : SameEnd n key key') (hdvd : modulus ∣ 32 ^ n) :
    spelled (Utf8.encode key) ≡ spelled (Utf8.encode key') [MOD modulus] := by
  obtain ⟨ending, rfl, hkey, hkey'⟩ := h
  exact (spelled_modEq_of_suffix hkey hdvd).trans (spelled_modEq_of_suffix hkey' hdvd).symm

/-- Seven octets fill a word: what stands before them is shifted out of it. -/
theorem SameEnd.rollingHash_eq (h : SameEnd 7 key key') : rollingHash key = rollingHash key' := by
  have hword : 2 ^ 32 ∣ 32 ^ 7 := ⟨8, rfl⟩
  rw [← UInt32.toNat_inj, toNat_rollingHash, toNat_rollingHash]
  exact h.spelled_modEq hword

theorem SameEnd.bucketOf_two_pow {m : Nat} (hm : m ≤ 32) (h : SameEnd ((m + 4) / 5) key key') :
    bucketOf key (2 ^ m) = bucketOf key' (2 ^ m) := by
  have hbits : 2 ^ m ∣ 32 ^ ((m + 4) / 5) := by
    rw [show 32 = 2 ^ 5 from rfl, ← Nat.pow_mul]
    exact Nat.pow_dvd_pow 2 (by omega)
  rw [bucketOf, bucketOf, toNat_rollingHash, toNat_rollingHash,
    Nat.mod_mod_of_dvd _ (Nat.pow_dvd_pow 2 hm), Nat.mod_mod_of_dvd _ (Nat.pow_dvd_pow 2 hm)]
  exact h.spelled_modEq hbits

/-- The bucket of a key is the remainder of the number that the key spells, less what does not fit into a word.
So keys with the same last seven octets share their bucket, however many buckets there are, and fewer octets
than that will do if the number of buckets is a power of two: two by default. -/
theorem bucketOf_of_end :
    (∀ key count, bucketOf key count = spelled (Utf8.encode key) % 2 ^ 32 % count) ∧
      (∀ key key' count, SameEnd 7 key key' ∨ key = key' → bucketOf key count = bucketOf key' count) ∧
      (∀ key key' m, m ≤ 32 → SameEnd ((m + 4) / 5) key key' →
        bucketOf key (2 ^ m) = bucketOf key' (2 ^ m)) ∧
      ∀ key key', SameEnd 2 key key' →
        bucketOf key ({} : Server.Settings).buckets = bucketOf key' ({} : Server.Settings).buckets := by
  refine ⟨fun key count => ?_, fun key key' count h => ?_, fun key key' m hm h => h.bucketOf_two_pow hm,
    fun key key' h => h.bucketOf_two_pow (m := 10) (by decide)⟩
  · rw [bucketOf, toNat_rollingHash]
  · rcases h with hend | rfl
    · rw [bucketOf, bucketOf, hend.rollingHash_eq]
    · rfl

/-- Two keys with the same last seven octets, and two that share six and not their bucket. The same with two
octets and one by default. -/
theorem bucketOf_of_end_numbered :
    (SameEnd 7 "item-0000017" "user:0000017" ∧
        bucketOf "item-0000017" 1000 = bucketOf "user:0000017" 1000 ∧
        bucketOf "item-1000017" 1000 ≠ bucketOf "item-2000017" 1000) ∧
      (10 ≤ 32 ∧ SameEnd ((10 + 4) / 5) "item-17" "user:4217" ∧
        bucketOf "item-17" (2 ^ 10) = bucketOf "user:4217" (2 ^ 10)) ∧
      bucketOf "item-17" ({} : Server.Settings).buckets =
        bucketOf "user:4217" ({} : Server.Settings).buckets ∧
      bucketOf "item-17" ({} : Server.Settings).buckets ≠
        bucketOf "item-27" ({} : Server.Settings).buckets := by
  have hseven : SameEnd 7 "item-0000017" "user:0000017" :=
    ⟨Utf8.encode "0000017", rfl, by decide, by decide⟩
  have htwo : SameEnd 2 "item-17" "user:4217" := ⟨Utf8.encode "17", rfl, by decide, by decide⟩
  obtain ⟨-, hany, hpower, hdefault⟩ := bucketOf_of_end
  exact ⟨⟨hseven, hany _ _ 1000 (.inl hseven), by decide⟩,
    ⟨by decide, htwo, hpower _ _ 10 (by decide) htwo⟩, hdefault _ _ htwo, by decide⟩

end LineStore.Store
