import GameAP.Lib.Run
import GameAP.Lib.Replay
import GameAP.Lib.Heap
import GameAP.Lib.Calendar
import GameAP.Lib.Table
import GameAP.Lib.Keeps
import GameAP.Lib.Triple
import GameAP.Lib.Loop
import GameAP.Lib.Ring
import GameAP.Lib.Waits
import GameAP.Lib.Delimiter
import GameAP.Lib.LexicalPath
import GameAP.Lib.Substitution
import GameAP.Lib.Split
import GameAP.Lib.Runs
import GameAP.Lib.Overlay
import GameAP.Lib.ShellWords
import GameAP.Functions.Json
import GameAP.Functions.GString
import GameAP.Functions.RestApi
import GameAP.Functions.RestCalls
import GameAP.Functions.GSystem
import GameAP.Functions.GSystemPipes
import GameAP.Functions.Auth
import GameAP.Functions.StrReplace
import GameAP.Functions.FileTree
import GameAP.Functions.CopyDir
import GameAP.Models.Server
import GameAP.Classes.GameServersList
import GameAP.Classes.ServerStamps
import GameAP.Classes.ServerLookups
import GameAP.Classes.ServerRecords
import GameAP.Classes.ServerVars
import GameAP.Classes.DedicatedServer
import GameAP.Classes.PanelTime
import GameAP.Classes.CpuLoad
import GameAP.Classes.NetLoad
import GameAP.State
import GameAP.Config
import GameAP.Commands.Cmd
import GameAP.Commands.Output
import GameAP.Commands.GameServerCmd
import GameAP.Commands.GameServerRemove
import GameAP.Commands.GameServerFiles
import GameAP.Commands.UnprivilegedExec
import GameAP.Commands.ReplaceShortcodes
import GameAP.Commands.GameServerIdentity
import GameAP.Commands.StartCommand
import GameAP.Classes.DedicatedServerInit
import GameAP.Commands.GameServerInstaller
import GameAP.Commands.GameServerInstall
import GameAP.Classes.GameServersLoop
import GameAP.Classes.GameServersUpdate
import GameAP.Classes.GameServersPass
import GameAP.Classes.GameServersAutostart
import GameAP.Classes.ServersTasks
import GameAP.Classes.ServersTasksSteps
import GameAP.Classes.ServersTasksQueue
import GameAP.Classes.ServersTasksBookkeeping
import GameAP.Classes.ServersTasksCommands
import GameAP.Classes.ServersTasksDates
import GameAP.Classes.ServersTasksTurns
import GameAP.Classes.ServersTasksSync
import GameAP.Classes.GdaemonTasks
import GameAP.Classes.GdaemonTasksSteps
import GameAP.Classes.GdaemonTasksQueue
import GameAP.Classes.GdaemonTasksProgress
import GameAP.Classes.GdaemonTasksRestart
import GameAP.Classes.GdaemonTasksInstall
import GameAP.Classes.GdaemonTasksForks
import GameAP.Classes.GdaemonTasksStart
import GameAP.Classes.GdaemonTasksImport
import GameAP.Classes.GdaemonTasksStats
import GameAP.Classes.TaskProcess
import GameAP.Classes.TaskOutput
import GameAP.Daemon
import GameAP.DaemonAutostart
import GameAP.DaemonServer
import GameAP.DaemonServerAuth
import GameAP.DaemonTasks
import GameAP.ControlLinux
import GameAP.RunDaemon
import GameAP.Components.Server.ReadBuffer
import GameAP.Components.Server.FilesComponent
import GameAP.Components.Server.FilesTransfer
import GameAP.Components.Server.SplitRequests
import GameAP.Components.Server.ReadUntil
import GameAP.Components.Server.CommandsComponent
import GameAP.Components.Server.StatusComponent
import GameAP.Components.Server.RequestFrames
import GameAP.Components.Server.FilesCommands
import GameAP.Components.Server.Responses
import GameAP.Components.Server.FilesMode
import GameAP.Components.Server.FilesReceive
import GameAP.Components.Server.FilesSending
import GameAP.Components.Server.FilesHandle
import GameAP.Commands.ShortcodeTemplates
import GameAP.Functions.CopyDirFailures
import GameAP.Components.Server.FilesLedger
import GameAP.Classes.StatsPeriods
import GameAP.Classes.MemInfo
import GameAP.Classes.GdaemonTasksLives
import GameAP.Classes.ServersTasksRounds
import GameAP.Commands.DedicatedServerCmd
import GameAP.DaemonRestarts
import GameAP.Classes.GdaemonTasksDrain
import GameAP.Commands.InstallDirectories
