import SshKeys.Main
import SshKeys.Secret
import SshKeys.Proofs.Chain
import SshKeys.Proofs.KdfBounds
import SshKeys.Proofs.Detection
import SshKeys.Proofs.Faults
import SshKeys.Proofs.ContainerFaults
import SshKeys.Proofs.Passphrase
import SshKeys.Proofs.LoadedKeys
import SshKeys.Proofs.Exported
import SshKeys.Proofs.Imported
import SshKeys.Proofs.Reported
import SshKeys.Proofs.Agreement
import SshKeys.Proofs.Layout
import SshKeys.Proofs.NormalForm
import SshKeys.Proofs.Preamble
import SshKeys.Proofs.NamedCurve
import SshKeys.Proofs.Envelope
import SshKeys.Proofs.Family
import SshKeys.Proofs.Undecryptable
import SshKeys.Proofs.ArmorLanguage
import SshKeys.Proofs.ArmorLayout
import SshKeys.Proofs.Sealing
import SshKeys.Proofs.CounterMode
import SshKeys.Proofs.ClearPart
import SshKeys.Proofs.FileSystem
import SshKeys.Proofs.Overwriting
import SshKeys.Proofs.WrongPassphrase
import SshKeys.Proofs.Unlock
import SshKeys.Proofs.BitLength
import SshKeys.Proofs.Fields
import SshKeys.Proofs.Room
import SshKeys.Proofs.SettingsFile
