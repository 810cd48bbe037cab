import TaskFirestoreApp.Library.Run
import TaskFirestoreApp.Library.Collection
import TaskFirestoreApp.Library.Document
import TaskFirestoreApp.Library.Backend
import TaskFirestoreApp.Library.Everywhere
import TaskFirestoreApp.Library.Register
import TaskFirestoreApp.Library.Toggle
import TaskFirestoreApp.Library.Settling
import TaskFirestoreApp.Library.Turns
import TaskFirestoreApp.Library.Part
import TaskFirestoreApp.Library.Together
import TaskFirestoreApp.Library.Observers
import TaskFirestoreApp.TaskManager
import TaskFirestoreApp.Groups.App
import TaskFirestoreApp.Groups.Program
import TaskFirestoreApp.Groups.Effects
import TaskFirestoreApp.Groups.Keys
import TaskFirestoreApp.Groups.MakeScreen
import TaskFirestoreApp.Groups.Histories
import TaskFirestoreApp.Groups.Versions
import TaskFirestoreApp.Groups.Identities
import TaskFirestoreApp.Groups.Duplicates
import TaskFirestoreApp.Groups.Registers
import TaskFirestoreApp.Groups.LostUpdates
import TaskFirestoreApp.Groups.Deletions
import TaskFirestoreApp.Groups.Visibility
import TaskFirestoreApp.Groups.SingleWriter
import TaskFirestoreApp.Groups.Rows
import TaskFirestoreApp.Groups.Indices
import TaskFirestoreApp.Groups.Refreshes
import TaskFirestoreApp.Groups.Convergence
import TaskFirestoreApp.Groups.Settling
import TaskFirestoreApp.Groups.Costs
import TaskFirestoreApp.Users.App
import TaskFirestoreApp.Users.Program
import TaskFirestoreApp.Users.Effects
import TaskFirestoreApp.Users.SavedRecord
import TaskFirestoreApp.Users.Records
import TaskFirestoreApp.Users.Duplicates
import TaskFirestoreApp.Users.QRCode
import TaskFirestoreApp.Users.Accounts
import TaskFirestoreApp.Users.Sessions
import TaskFirestoreApp.Users.Screens
import TaskFirestoreApp.Users.Rest
import TaskFirestoreApp.Users.Directory
import TaskFirestoreApp.Users.Turns
import TaskFirestoreApp.Users.Scans
import TaskFirestoreApp.Users.Owners
import TaskFirestoreApp.Users.Labels
import TaskFirestoreApp.Users.Loads
import TaskFirestoreApp.Users.Renames
import TaskFirestoreApp.Stores
import TaskFirestoreApp.Process.Program
import TaskFirestoreApp.Process.Parts
import TaskFirestoreApp.Process.Screens
import TaskFirestoreApp.Process.Rest
