import ReceiptVerifier.Lib.Choice
import ReceiptVerifier.Openssl.Path

/-!
# OpenSSL's issuer lookup

What `rust/openssl/src/path.rs` documents of how `X509_verify_cert` builds a path: at each
certificate the store is asked first, then the untrusted certificates; each lookup takes the first
certificate that pairs and is valid at the second, else the one that expires last, and does not come
back to try another. With `X509_V_FLAG_PARTIAL_CHAIN` the path ends at the first certificate of the
store. How the path is judged once it is built stays a parameter.
-/

namespace ReceiptVerifier

namespace Openssl

/-- What the lookup reads of certificates, and the judgement of a path. -/
structure Lookup where
  /-- The first certificate's name, key identifiers and key type fit as the second's issuer.
  `keyUsage` is not looked at. -/
  pairs : Certificate → Certificate → Bool
  validAt : Certificate → Int → Bool
  notAfter : Certificate → Int
  /-- The path ends at a self-signed certificate. -/
  selfSigned : Certificate → Bool
  /-- Whether a path passes under a store at a second, and the reports on it. -/
  judge : List Certificate → List Certificate → Int → Bool × List Report

namespace Lookup

variable (lookup : Lookup) (second : Int)

/-- The certificates that pair with `certificate` as its issuer. -/
def paired (certificate : Certificate) (offered : List Certificate) : List Certificate :=
  offered.filter fun issuer => lookup.pairs issuer certificate

/-- The issuer the lookup takes for `certificate`. -/
def findIssuer (certificate : Certificate) (offered : List Certificate) : Option Certificate :=
  Choice.pick (fun issuer => lookup.validAt issuer second) lookup.notAfter
    (lookup.paired certificate offered)

/-- The path from `certificate` up. A certificate on the path is not taken again, so each round
leaves fewer of the untrusted ones and as many rounds as there are of them are enough. -/
def climb (store : List Certificate) :
    Nat → Certificate → List Certificate → List Certificate
  | 0, certificate, _ => [certificate]
  | rounds + 1, certificate, remaining =>
    if store.contains certificate then [certificate]
    else
      match lookup.findIssuer second certificate store with
      | some anchor => [certificate, anchor]
      | none =>
        if lookup.selfSigned certificate then [certificate]
        else
          match lookup.findIssuer second certificate remaining with
          | none => [certificate]
          | some issuer =>
            certificate :: climb store rounds issuer (remaining.filter fun c => !c.sameAs issuer)

/-- The path `X509_verify_cert` builds. -/
def buildChain (target : Certificate) (untrusted store : List Certificate) : List Certificate :=
  lookup.climb second store (untrusted.length + 1) target
    (untrusted.filter fun c => !c.sameAs target)

theorem climb_ne_nil (store : List Certificate) (rounds : Nat) (certificate : Certificate)
    (remaining : List Certificate) :
    lookup.climb second store rounds certificate remaining ≠ [] := by
  cases rounds with
  | zero => exact List.cons_ne_nil _ _
  | succ rounds =>
    unfold climb
    repeat' split
    all_goals exact List.cons_ne_nil _ _

variable {lookup second} in
/-- A path ends at a certificate offered, or at one of the store that pairs with one offered. -/
theorem climb_top {store remaining : List Certificate} {rounds : Nat}
    {certificate top : Certificate}
    (h : (lookup.climb second store rounds certificate remaining).getLast? = some top) :
    top ∈ certificate :: remaining ∨
      ∃ c ∈ certificate :: remaining, lookup.pairs top c = true := by
  induction rounds generalizing certificate remaining with
  | zero =>
    obtain rfl : certificate = top := by simpa [climb] using h
    exact .inl List.mem_cons_self
  | succ rounds ih =>
    have ends : [certificate].getLast? = some top → top ∈ certificate :: remaining := by
      rintro ⟨⟩
      exact List.mem_cons_self
    unfold climb at h
    split at h
    · exact .inl (ends h)
    · split at h
      · next found =>
        obtain rfl := Option.some.inj h
        have pairs := (List.mem_filter.mp (Choice.pick_mem found)).2
        exact .inr ⟨certificate, List.mem_cons_self, pairs⟩
      · split at h
        · exact .inl (ends h)
        · split at h
          · exact .inl (ends h)
          · next issuer found =>
            have mem := (List.mem_filter.mp (Choice.pick_mem found)).1
            have inside : ∀ c ∈ issuer :: remaining.filter (fun c => !c.sameAs issuer),
                c ∈ certificate :: remaining := by
              intro c hc
              rcases List.mem_cons.mp hc with rfl | left
              · exact List.mem_cons_of_mem _ mem
              · exact List.mem_cons_of_mem _ (List.mem_filter.mp left).1
            have above := h
            rw [List.getLast?_cons_of_ne_nil (lookup.climb_ne_nil second _ _ _ _)] at above
            rcases ih above with left | ⟨c, left, pairs⟩
            · exact .inl (inside top left)
            · exact .inr ⟨c, inside c left, pairs⟩

/-- `X509_verify_cert` with this lookup. -/
def verifyCert (target : Certificate) (untrusted store : List Certificate) : VerifyCert :=
  let chain := lookup.buildChain second target untrusted store
  let (verified, reports) := lookup.judge store chain second
  ⟨verified, chain, reports⟩

end Lookup

/-- OpenSSL builds its paths with this lookup. -/
def OpenSsl.LooksUp (ssl : OpenSsl) (lookup : Lookup) : Prop :=
  ∀ target untrusted store second, ssl.verifyCert target untrusted store second =
    some (lookup.verifyCert second target untrusted store)

end Openssl

end ReceiptVerifier
