import Ndns.Daemon.RrsetFactory

/-!
# A Key Chain in Memory

The services of a process that can do everything: its key chain signs every packet and has one
certificate for each identity, its validator accepts every packet, and its clock advances with
every reading and with every key that is made.
-/

namespace Ndns.Daemon

open Ndn

namespace LocalServices

/-- A component of one byte. -/
def letter (byte : Byte) : Component := Component.generic [byte] (by simp)

/-- The one key of an identity. -/
def keyName (identity : Name) : Name := identity ++ [CertHelper.keyComponent, Component.fromVersion 0]

/-- The certificate of a key. -/
def certificateName (key : Name) : Name := key ++ [Label.certRrType, Component.fromVersion 0]

def certificate (key : Name) : Data :=
  ⟨certificateName key, NdnsContentType.key.toCode, 3600000, [], [], []⟩

/-- The key chain, with the time as its state. -/
def answer : (service : Service) → ℕ → service.Answer × ℕ
  | .now, time => (time, time + 1)
  | .sign _ _, time => (some ([], []), time)
  | .validate _, time => (true, time)
  | .defaultKeyName identity, time => (some (keyName identity), time)
  | .defaultCertificateName identity, time => (some (certificateName (keyName identity)), time)
  | .certificates identity, time => (some [certificate (keyName identity)], time)
  | .createIdentity _, time => (true, time)
  | .createKey identity, time =>
      (some (identity ++ [CertHelper.keyComponent, Component.fromVersion time]), time + 1)
  | .findKey _ _, time => (true, time)
  | .publicKey _, time => (some [], time)
  | .keyDefaultCertificateName key, time => (some (certificateName key), time)
  | .addCertificate _ _, time => (true, time)
  | .deleteCertificate _ _, time => (true, time)
  | .setDefaultKey _ _, time => (true, time)
  | .setDefaultCertificate _ _, time => (true, time)
  | .load _, time => (.notFile, time)

end LocalServices

/-- The services of that process. -/
def localServices : Services ℕ := ⟨LocalServices.answer⟩

end Ndns.Daemon
